import TcpProxy.Proxying.Steps

namespace TcpProxy.Proxying
open Events AutoBlacklist LinkedChain

variable {σ α : Type} {ctx : Context σ α} {s : Proxy σ α} {listener : Nat} {chain pool : List Nat}

def descriptorsOf (c : Connections) (chain : List Nat) : List Int :=
  chain.flatMap fun e => [(c.memory e).clientFd,(c.memory e).serverFd]

def idsOf (c : Connections) (chain : List Nat) : List Int := chain.map fun e => (c.memory e).connectionId

-- What is true whatever the kernel answers: the chain's descriptors are open
-- and no two of them are the same, and a connection number is used once.
structure Owned (listener : Nat) (s : Proxy σ α) (chain pool : List Nat) : Prop where
  shape : ConnShape s.conns chain [] pool
  sockets : s.sockets.Sound
  distinct : ((listener : Int) :: descriptorsOf s.conns chain).Nodup
  opened : ∀ fd ∈ (listener : Int) :: descriptorsOf s.conns chain, s.sockets.table fd ≠ none
  closes : s.sockets.badCloses = []
  numbered : (idsOf s.conns chain ++ s.closings.map Closing.connectionId).Nodup
  known : ∀ id ∈ idsOf s.conns chain ++ s.closings.map Closing.connectionId, id ≤ s.connectionCounter

def Covered (listener : Nat) (s : Proxy σ α) (chain : List Nat) : Prop :=
  ∀ fd, s.sockets.table fd ≠ none → fd ∈ (listener : Int) :: descriptorsOf s.conns chain

theorem descriptorsOf_congr (same : ∀ e ∈ chain, (next.memory e).data = (c.memory e).data) :
    descriptorsOf next chain = descriptorsOf c chain := by
  induction chain with
  | nil => rfl
  | cons e rest ih =>
      have own := same e (by simp)
      have client : (next.memory e).clientFd = (c.memory e).clientFd := by rw [eq_of_data own]
      have server : (next.memory e).serverFd = (c.memory e).serverFd := by rw [eq_of_data own]
      have others := ih (fun a member => same a (List.mem_cons_of_mem _ member))
      simp only [descriptorsOf,List.flatMap_cons] at others ⊢
      rw [client,server,others]

theorem idsOf_congr (same : ∀ e ∈ chain, (next.memory e).data = (c.memory e).data) :
    idsOf next chain = idsOf c chain := by
  refine List.map_congr_left (fun e member => ?_)
  rw [eq_of_data (same e member)]

theorem descriptorsOf_middle (c : Connections) (before after : List Nat) (e : Nat) :
    (descriptorsOf c (before ++ e :: after)).Perm
      ((c.memory e).clientFd :: (c.memory e).serverFd :: descriptorsOf c (before ++ after)) := by
  have moved : (before ++ e :: after).Perm (e :: (before ++ after)) := List.perm_middle
  exact moved.flatMap_right _

theorem descriptors_removed (listener : Nat) (c : Connections) (before after : List Nat) (e : Nat) :
    ((listener : Int) :: descriptorsOf c (before ++ e :: after)).Perm
      ((c.memory e).clientFd :: (c.memory e).serverFd :: (listener : Int) :: descriptorsOf c (before ++ after)) :=
  ((descriptorsOf_middle c before after e).cons _).trans ((List.Perm.swap _ _ _).trans ((List.Perm.swap _ _ _).cons _))

theorem Owned.descriptors_apart (owned : Owned listener s (before ++ e :: after) pool) :
    (s.conns.memory e).clientFd ≠ (s.conns.memory e).serverFd ∧
      ∀ fd ∈ (listener : Int) :: descriptorsOf s.conns (before ++ after),
        fd ≠ (s.conns.memory e).clientFd ∧ fd ≠ (s.conns.memory e).serverFd := by
  have distinct := (descriptors_removed listener s.conns before after e).nodup_iff.mp owned.distinct
  obtain ⟨clientApart,inner⟩ := List.nodup_cons.mp distinct
  obtain ⟨serverApart,_⟩ := List.nodup_cons.mp inner
  refine ⟨fun equal => clientApart (equal ▸ List.mem_cons_self),fun fd member => ⟨?_,?_⟩⟩
  · exact fun equal => clientApart (equal ▸ List.mem_cons_of_mem _ member)
  · exact fun equal => serverApart (equal ▸ member)

theorem idsOf_middle (c : Connections) (before after : List Nat) (e : Nat) :
    (idsOf c (before ++ e :: after)).Perm ((c.memory e).connectionId :: idsOf c (before ++ after)) :=
  List.perm_middle.map _

theorem close_both {s : Sockets} (one : s.table a ≠ none) (two : s.table b ≠ none) (different : b ≠ a) :
    (s.close a).close b = {s with table := Function.update (Function.update s.table a none) b none} := by
  obtain ⟨j,first⟩ := Option.ne_none_iff_exists'.mp one
  obtain ⟨k,second⟩ := Option.ne_none_iff_exists'.mp two
  rw [close_open first]
  exact close_open (k := k) (by simpa [Function.update_of_ne different] using second)

def Resolving (ctx : Context σ α) (s : Proxy σ α) : Event → Prop
  | .accept input => ¬ Unresolved ctx s input
  | _ => True

instance (ctx : Context σ α) (s : Proxy σ α) : (event : Event) → Decidable (Resolving ctx s event)
  | .accept input => inferInstanceAs (Decidable (¬ Unresolved ctx s input))
  | .relay _ _ _ => isTrue trivial
  | .cleanIdle _ _ => isTrue trivial
  | .expiring _ => isTrue trivial
  | .closeIdle _ => isTrue trivial
  | .setDefaultChannel _ => isTrue trivial
  | .setFallbackChannel _ => isTrue trivial

theorem renumbered (c : Connections) (before after : List Nat) (e : Nat) (closings : List Closing) (idle : Bool) :
    (idsOf c (before ++ e :: after) ++ closings.map Closing.connectionId).Perm
      (idsOf c (before ++ after) ++ (closings ++ [closingOf (c.memory e) idle]).map Closing.connectionId) := by
  rw [List.map_append,← List.append_assoc]
  exact ((idsOf_middle c before after e).append_right _).trans (List.perm_append_singleton _ _).symm

section Kept
variable (complete : Prop)

-- `complete` asks in addition that nothing else is open.
def Accounted (listener : Nat) (s : Proxy σ α) (chain pool : List Nat) : Prop :=
  Owned listener s chain pool ∧ (complete → Covered listener s chain)

theorem drop_accounted (ctx : Context σ α) (idle : Bool)
    (valid : Accounted complete listener s (before ++ e :: after) pool) :
    Accounted complete listener (dropConnection ctx s e idle) (before ++ after) (e :: pool) := by
  obtain ⟨owned,covered⟩ := valid
  obtain ⟨shape,data,sockets,_,closings,_,_,counter,_⟩ := drop_spec ctx s idle owned.shape
  have descriptors := descriptorsOf_congr (fun a member => data a (owned.shape.middle_apart member))
  have ids := idsOf_congr (fun a member => data a (owned.shape.middle_apart member))
  have moved := descriptors_removed listener s.conns before after e
  obtain ⟨different,others⟩ := owned.descriptors_apart
  have clientOpen := owned.opened _ (moved.mem_iff.mpr List.mem_cons_self)
  have serverOpen := owned.opened _ (moved.mem_iff.mpr (List.mem_cons_of_mem _ List.mem_cons_self))
  have closed := close_both clientOpen serverOpen (Ne.symm different)
  have renumbered := renumbered s.conns before after e s.closings idle
  refine ⟨⟨shape,?_,?_,?_,?_,?_,?_⟩,fun asked => ?_⟩
  · rw [sockets]
    exact close_sound (close_sound owned.sockets _) _
  · rw [descriptors]
    exact (List.nodup_cons.mp (List.nodup_cons.mp (moved.nodup_iff.mp owned.distinct)).2).2
  · intro fd member
    rw [descriptors] at member
    obtain ⟨two,one⟩ := others fd member
    have before := owned.opened fd
      (moved.mem_iff.mpr (List.mem_cons_of_mem _ (List.mem_cons_of_mem _ member)))
    rw [sockets,closed]
    simpa [Function.update_of_ne one,Function.update_of_ne two] using before
  · rw [sockets,closed]
    exact owned.closes
  · rw [ids,closings]
    exact renumbered.nodup_iff.mp owned.numbered
  · intro id member
    rw [ids,closings] at member
    rw [counter]
    exact owned.known id (renumbered.mem_iff.mpr member)
  · intro fd present
    rw [sockets,closed] at present
    rw [descriptors]
    by_cases one : fd = (s.conns.memory e).serverFd
    · subst fd; simp at present
    · by_cases two : fd = (s.conns.memory e).clientFd
      · subst fd; simp [Function.update_of_ne one] at present
      · have before := covered asked fd (by simpa [Function.update_of_ne one,Function.update_of_ne two] using present)
        simpa [one,two] using moved.mem_iff.mp before

theorem touch_data {c : Connections} {info : ConnectionInfo} (chain : List Nat) (fields : info = {c.memory e with
        recent := info.recent, bytesSent := info.bytesSent, requestCount := info.requestCount,
        bytesReceived := info.bytesReceived, responseCount := info.responseCount}) :
    descriptorsOf (c.set e info) chain = descriptorsOf c chain ∧ idsOf (c.set e info) chain = idsOf c chain := by
  have same : ∀ a, ((c.set e info).memory a).clientFd = (c.memory a).clientFd ∧
      ((c.set e info).memory a).serverFd = (c.memory a).serverFd ∧
      ((c.set e info).memory a).connectionId = (c.memory a).connectionId := by
    intro a
    by_cases equal : a = e
    · subst a; rw [set_self,fields]; exact ⟨rfl,rfl,rfl⟩
    · rw [set_other _ _ equal]; exact ⟨rfl,rfl,rfl⟩
  refine ⟨?_,List.map_congr_left fun a _ => (same a).2.2⟩
  simp only [descriptorsOf,same]

theorem relayChunk_accounted (ctx : Context σ α) (source destination : Int) (e : Nat) (input : RelayInput)
    (valid : Accounted complete listener s chain pool) :
    Accounted complete listener (relayChunk ctx s source destination e input).2 chain pool := by
  obtain ⟨owned,covered⟩ := valid
  obtain ⟨info,sockets,db,analyzer,chunks,outcome,fields,same⟩ := relayChunk_frame ctx s source destination e input
  obtain ⟨descriptors,ids⟩ := touch_data chain fields
  rw [outcome]
  have shape := owned.shape.set_data e info (by rw [fields]) (by rw [fields]) (by rw [fields])
  refine ⟨⟨shape,same.sound owned.sockets,?_,?_,same.closes.trans owned.closes,?_,?_⟩,fun asked => ?_⟩
  · simpa only [descriptors] using owned.distinct
  · simpa only [descriptors,same.table] using owned.opened
  · simpa only [ids] using owned.numbered
  · simpa only [ids] using owned.known
  · simpa only [Covered,descriptors,same.table] using covered asked

theorem Owned.opening (owned : Owned listener s chain pool) (path : Opened s.sockets grown fds)
    (later : s.connectionCounter ≤ counter) (db : σ) (blacklist : Table) :
    Owned listener {s with sockets := grown,db := db,blacklist := blacklist,connectionCounter := counter}
      chain pool := by
  refine ⟨owned.shape,path.sound owned.sockets,owned.distinct,?_,path.closes.trans owned.closes,owned.numbered,
    fun id member => Int.le_trans (owned.known id member) later⟩
  intro fd member
  obtain ⟨k,before⟩ := Option.ne_none_iff_exists'.mp (owned.opened fd member)
  simp [path.kept fd k before]

theorem attached_accounted (valid : Accounted complete listener s chain pool)
    (shape : ConnShape next.conns (e :: chain) [] rest) (path : Opened s.sockets next.sockets [fdc,proxyFd])
    (descriptors : descriptorsOf next.conns (e :: chain) = fdc :: proxyFd :: descriptorsOf s.conns chain)
    (ids : idsOf next.conns (e :: chain) = (s.connectionCounter+1) :: idsOf s.conns chain)
    (closings : next.closings = s.closings) (counter : next.connectionCounter = s.connectionCounter+1) :
    Accounted complete listener next (e :: chain) rest := by
  obtain ⟨owned,covered⟩ := valid
  have fresh : ∀ fd ∈ [fdc,proxyFd], fd ∉ (listener : Int) :: descriptorsOf s.conns chain :=
    fun fd new old => owned.opened fd old (path.fresh fd new).1
  have clientFresh := fresh fdc (by simp)
  have serverFresh := fresh proxyFd (by simp)
  have different : fdc ≠ proxyFd := by simpa using path.once
  have moved : ((listener : Int) :: fdc :: proxyFd :: descriptorsOf s.conns chain).Perm
      (fdc :: proxyFd :: (listener : Int) :: descriptorsOf s.conns chain) :=
    (List.Perm.swap _ _ _).trans ((List.Perm.swap _ _ _).cons _)
  refine ⟨⟨shape,?_,?_,?_,?_,?_,?_⟩,fun asked => ?_⟩
  · exact path.sound owned.sockets
  · rw [descriptors]
    refine moved.nodup_iff.mpr (List.nodup_cons.mpr ⟨?_,List.nodup_cons.mpr ⟨serverFresh,owned.distinct⟩⟩)
    intro member
    rcases List.mem_cons.mp member with equal | old
    · exact different equal
    · exact clientFresh old
  · intro fd member
    rw [descriptors] at member
    have either : fd ∈ [fdc,proxyFd] ∨ fd ∈ (listener : Int) :: descriptorsOf s.conns chain := by
      simpa [or_assoc,or_left_comm] using moved.mem_iff.mp member
    rcases either with new | old
    · obtain ⟨k,present,_⟩ := path.opened fd new
      simp [present]
    · obtain ⟨k,before⟩ := Option.ne_none_iff_exists'.mp (owned.opened fd old)
      simp [path.kept fd k before]
  · exact path.closes.trans owned.closes
  · rw [ids,closings]
    refine List.nodup_cons.mpr ⟨fun member => ?_,owned.numbered⟩
    have bound := owned.known _ member
    omega
  · intro id member
    rw [ids,closings] at member
    rw [counter]
    rcases List.mem_cons.mp member with equal | old
    · exact Int.le_of_eq equal
    · have bound := owned.known id old
      omega
  · intro fd present
    rw [descriptors]
    refine moved.mem_iff.mpr ?_
    rcases path.only fd present with before | new
    · exact List.mem_cons_of_mem _ (List.mem_cons_of_mem _ (covered asked fd before))
    · rcases List.mem_cons.mp new with rfl | last
      · simp
      · obtain rfl : fd = proxyFd := by simpa using last
        simp

theorem accept_accounted (ctx : Context σ α) (input : AcceptInput) (valid : Accounted complete listener s chain pool)
    (resolving : complete → ¬ Unresolved ctx s input) :
    ∃ chain' pool', Accounted complete listener (mainListener ctx s input) chain' pool' ∧
      ∀ a ∈ chain, a ∈ chain' ∧ ((mainListener ctx s input).conns.memory a).data = (s.conns.memory a).data := by
  obtain ⟨owned,covered⟩ := valid
  rcases accept_cases ctx s input with
    ⟨sockets,db,blacklist,counter,fds,outcome,later,path,clean,_⟩ |
    ⟨sockets,db,blacklist,fdc,proxyFd,admission,remoteIp,outcome,path,_,_⟩
  · rw [outcome]
    refine ⟨chain,pool,⟨owned.opening path later db blacklist,fun asked => ?_⟩,fun a member => ⟨member,rfl⟩⟩
    · intro fd present
      rcases path.only fd present with before | new
      · exact covered asked fd before
      · rw [clean.mpr (resolving asked)] at new
        cases new
  · obtain ⟨⟨rest,shape⟩,outside,data,fields,_⟩ := establish_spec ctx
      {s with sockets := sockets,db := db,blacklist := blacklist,connectionCounter := s.connectionCounter+1}
      fdc proxyFd (s.connectionCounter+1) admission remoteIp input owned.shape
    obtain ⟨sameSockets,_,counter,closings,_⟩ := establish_frame ctx
      {s with sockets := sockets,db := db,blacklist := blacklist,connectionCounter := s.connectionCounter+1}
      fdc proxyFd (s.connectionCounter+1) admission remoteIp input
    rw [← outcome] at shape data fields sameSockets counter closings
    generalize (allocateConnectionInfo s.conns).1 = e at shape outside data fields
    generalize mainListener ctx s input = next at *
    have apart : ∀ a ∈ chain, a ≠ e := fun a member equal => outside (equal ▸ member)
    have client : (next.conns.memory e).clientFd = fdc := by rw [fields]
    have server : (next.conns.memory e).serverFd = proxyFd := by rw [fields]
    have number : (next.conns.memory e).connectionId = s.connectionCounter+1 := by rw [fields]
    have descriptors : descriptorsOf next.conns (e :: chain) =
        fdc :: proxyFd :: descriptorsOf s.conns chain := by
      rw [← descriptorsOf_congr (fun a member => data a (apart a member)),← client,← server]
      rfl
    have ids : idsOf next.conns (e :: chain) = (s.connectionCounter+1) :: idsOf s.conns chain := by
      rw [← idsOf_congr (fun a member => data a (apart a member)),← number]
      rfl
    exact ⟨e :: chain,rest,attached_accounted complete ⟨owned,covered⟩ shape (sameSockets ▸ path) descriptors ids closings
      counter,fun a member => ⟨List.mem_cons_of_mem _ member,data a (apart a member)⟩⟩

theorem accounted_invariant (ctx : Context σ α) (listener : Nat) :
    Invariant ctx (fun s event => complete → Resolving ctx s event) (Accounted complete listener) where
  shape valid := valid.1.shape
  accept valid resolving := by
    obtain ⟨chain,pool,after,_⟩ := accept_accounted complete ctx _ valid resolving
    exact ⟨chain,pool,after⟩
  relay valid _ inside := relay_keeps _ _ valid.1.shape inside
    (fun _ _ => relayChunk_accounted complete ctx _ _ _ _ valid) (drop_accounted complete ctx false)
  drop valid := drop_accounted complete ctx true valid
  other valid _ _ _ _ _ _ _ :=
    ⟨⟨valid.1.shape.keep rfl rfl rfl rfl (fun _ _ => ⟨rfl,rfl,rfl⟩),valid.1.sockets,valid.1.distinct,
      valid.1.opened,valid.1.closes,valid.1.numbered,valid.1.known⟩,valid.2⟩

theorem initial_accounted (listener : Nat) (memory : Nat → ConnectionInfo) (blacklist : Table) (db : σ)
    (analyzer : α) (defaultServer onFailedChannel : Int) :
    Accounted complete listener (proxyMain listener memory blacklist db analyzer defaultServer onFailedChannel)
      [] [] := by
  have only : ∀ fd k, (proxyMain listener memory blacklist db analyzer defaultServer onFailedChannel).sockets.table fd =
      some k → fd = listener ∧ k = 0 := by
    intro fd k present
    by_cases equal : fd = listener
    · subst fd
      exact ⟨rfl,by simpa [proxyMain] using present.symm⟩
    · simp [proxyMain,Function.update_of_ne equal] at present
  refine ⟨⟨new_connShape memory,⟨fun fd k present => ?_,fun fd other k one two => ?_⟩,by simp [descriptorsOf],?_,
    rfl,by simp [idsOf,proxyMain],by simp [idsOf,proxyMain]⟩,fun _ fd present => ?_⟩
  · rw [(only fd k present).2]
    exact Nat.zero_lt_one
  · exact (only fd k one).1.trans (only other k two).1.symm
  · intro fd member
    obtain rfl : fd = listener := by simpa [descriptorsOf] using member
    simp [proxyMain]
  · obtain ⟨k,place⟩ := Option.ne_none_iff_exists'.mp present
    simp [(only fd k place).1]

end Kept

def DescriptorsExact (listener : Nat) (s : Proxy σ α) : Prop :=
  s.sockets.badCloses = [] ∧ ∃ chain, Links s.conns.nextOf s.conns.infos chain ∧
    ∀ fd, s.sockets.table fd ≠ none ↔
      fd = listener ∨ ∃ e ∈ chain, fd = (s.conns.memory e).clientFd ∨ fd = (s.conns.memory e).serverFd

theorem accounted_exact (valid : Accounted True listener s chain pool) : DescriptorsExact listener s := by
  obtain ⟨owned,covered⟩ := valid
  refine ⟨owned.closes,chain,owned.shape.linked,fun fd => ?_⟩
  have listed : fd ∈ (listener : Int) :: descriptorsOf s.conns chain ↔
      fd = listener ∨ ∃ e ∈ chain, fd = (s.conns.memory e).clientFd ∨ fd = (s.conns.memory e).serverFd := by
    simp [descriptorsOf]
  exact ⟨fun present => listed.mp (covered trivial fd present),fun member => owned.opened fd (listed.mpr member)⟩

-- The descriptor that is left over was not open before, so no connection has it.
theorem unresolved_not_exact (valid : Accounted True listener s chain pool) (unresolved : Unresolved ctx s input) :
    ¬ DescriptorsExact listener (mainListener ctx s input) := by
  rintro ⟨_,chain',linked,exactly⟩
  rcases accept_cases ctx s input with
    ⟨sockets,db,blacklist,counter,fds,outcome,_,path,clean,_⟩ | ⟨_,_,_,_,_,_,_,_,_,_,resolved,_⟩
  · rw [outcome] at linked exactly
    obtain rfl : chain' = chain := links_unique linked valid.1.shape.linked
    cases fds with
    | nil => exact clean.mp rfl unresolved
    | cons fd rest =>
        obtain ⟨k,present,_⟩ := path.opened fd (by simp)
        have listed := (exactly fd).mp (by simp [present])
        refine valid.1.opened fd ?_ (path.fresh fd (by simp)).1
        simpa [descriptorsOf] using listed
  · exact resolved unresolved

theorem descriptors_exact_iff_names_resolve (ctx : Context σ α) (listener : Nat) (memory : Nat → ConnectionInfo)
    (blacklist : Table) (db : σ) (analyzer : α) (defaultServer onFailedChannel : Int) (events : List Event) :
    let start := proxyMain listener memory blacklist db analyzer defaultServer onFailedChannel
    (∀ earlier later, events = earlier ++ later →
      DescriptorsExact listener (Machine.run (step ctx) start earlier)) ↔
    Machine.Along (step ctx) (Resolving ctx) start events := by
  intro start
  refine Machine.exact_condition (fun s => ∃ chain pool, Accounted True listener s chain pool)
    ⟨[],[],initial_accounted True listener memory blacklist db analyzer defaultServer onFailedChannel⟩
    (fun _ _ ⟨_,_,valid⟩ resolving => (accounted_invariant True ctx listener).step valid fun _ => resolving)
    (fun _ ⟨_,_,valid⟩ => accounted_exact valid) ?_ events
  rintro s event ⟨chain,pool,valid⟩ exactly
  cases event with
  | accept input => exact fun unresolved => unresolved_not_exact valid unresolved exactly
  | relay _ _ _ => trivial
  | cleanIdle _ _ => trivial
  | expiring _ => trivial
  | closeIdle _ => trivial
  | setDefaultChannel _ => trivial
  | setFallbackChannel _ => trivial

-- A server given by a name that does not resolve: descriptor 6 stays open.
theorem unresolved_name_leaks :
    ¬ DescriptorsExact 3 (Machine.run (step (oneServer "kms")) freshProxy [.accept (visitor 5 6)]) := by
  rintro ⟨_,chain,linked,exactly⟩
  have empty : chain = [] := links_none linked
  have opened : (Machine.run (step (oneServer "kms")) freshProxy [.accept (visitor 5 6)]).sockets.table 6 ≠ none := by
    decide
  rcases (exactly 6).mp opened with listening | ⟨e,member,_⟩
  · exact absurd listening (by decide)
  · simp [empty] at member

end TcpProxy.Proxying
