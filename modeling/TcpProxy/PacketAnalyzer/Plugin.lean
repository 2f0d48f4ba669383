import TcpProxy.Lib.Run

namespace TcpProxy.PacketAnalyzer

-- A load is the number of the dlopen call it came from, and a block the number
-- of the allocate call, with the load whose plugin it was made in.
structure Block where
  load : Nat
  number : Nat
deriving DecidableEq, Repr

inductive Call where
  | init (load : Nat)
  | allocate (load : Nat)
  | release (load : Nat) (data : Block)
  | analyze (load : Nat) (data : Block)
  | dlclose (library : Nat)
deriving DecidableEq, Repr

structure Analyzer where
  pluggableAnalyzer : Option Nat
  library : Option Nat
  referenceCount : Int
  pluginEnable : Bool
  autoUnload : Bool
  safeMode : Bool
deriving DecidableEq, Repr

def Analyzer.new : Analyzer := ⟨none,none,0,false,false,false⟩

-- `stale` is a dlerror left from before, as after a dlclose that failed. A
-- dlsym that fails returns NULL.
def moduleLoader (a : Analyzer) (load : Nat) (opened stale found : Bool) : Bool × Analyzer × List Call :=
  match a.pluggableAnalyzer with
  | some _ => (false,a,[])
  | none =>
    if !opened then (false,{a with library := none},[])
    else if stale then (false,{a with library := some load},[])
    else if found then
      (true,{a with library := some load,pluginEnable := false,autoUnload := false,pluggableAnalyzer := some load},
        [.init load])
    else (false,{a with library := some load,pluginEnable := false,autoUnload := false},[])

def moduleUnload (a : Analyzer) (closed : Bool) : Bool × Analyzer × List Call :=
  match a.pluggableAnalyzer with
  | none => (false,a,[])
  | some _ =>
    if a.referenceCount ≤ 0 then
      match a.library with
      | none => (true,{a with pluggableAnalyzer := none},[])
      | some library =>
        if closed then (true,{a with pluggableAnalyzer := none,library := none},[.dlclose library])
        else (false,{a with pluggableAnalyzer := none},[.dlclose library])
    else (false,{a with autoUnload := true},[])

def setEnable (a : Analyzer) (on : Bool) : Bool × Analyzer :=
  let enable := on && a.pluggableAnalyzer.isSome
  (enable,{a with pluginEnable := enable})

def setSafeMode (a : Analyzer) (on : Bool) : Analyzer := {a with safeMode := on}

def analyzerAllocate (a : Analyzer) (number : Nat) (returned : Bool) : Option Block × Analyzer × List Call :=
  match a.pluggableAnalyzer with
  | none => (none,a,[])
  | some load =>
    if a.pluginEnable then
      if returned then (some ⟨load,number⟩,{a with referenceCount := a.referenceCount+1},[.allocate load])
      else (none,a,[.allocate load])
    else (none,a,[])

def analyzerRelease (a : Analyzer) (data : Option Block) (closed : Bool) : Analyzer × List Call :=
  match data,a.pluggableAnalyzer with
  | some block,some load =>
    let a := {a with referenceCount := a.referenceCount-1}
    if a.referenceCount = 0 ∧ a.autoUnload then
      let (_,a,calls) := moduleUnload a closed
      (a,.release load block :: calls)
    else (a,[.release load block])
  | _,_ => (a,[])

-- `value` is what the plugin's analyze returns, unless try_catch has caught it.
def analyzePacket (a : Analyzer) (data : Option Block) (caught : Bool) (value : UInt64) :
    UInt64 × Analyzer × List Call :=
  match a.pluginEnable,data,a.pluggableAnalyzer with
  | true,some block,some load =>
    if a.safeMode && caught then (0,{a with pluginEnable := false,autoUnload := true},[.analyze load block])
    else (value,a,[.analyze load block])
  | _,_,_ => (0,a,[])

def loadPacketAnalyzer (a : Analyzer) (boot named : Bool) (loadOnBoot enableOnBoot : Int)
    (load : Nat) (opened stale found : Bool) : Nat × Analyzer × List Call :=
  if boot && loadOnBoot == 0 then (1,a,[])
  else if named then
    let (loaded,a,calls) := moduleLoader a load opened stale found
    if loaded then (0,if boot && enableOnBoot != 0 then (setEnable a true).2 else a,calls)
    else (2,a,calls)
  else (3,a,[])

inductive Event where
  | load (opened stale found : Bool)
  | loadPacketAnalyzer (boot named : Bool) (loadOnBoot enableOnBoot : Int) (opened stale found : Bool)
  | unload (closed : Bool)
  | setEnable (on : Bool)
  | setSafeMode (on : Bool)
  | allocate (returned : Bool)
  | analyze (data : Option Block) (caught : Bool) (value : UInt64)
  | release (data : Option Block) (closed : Bool)
deriving DecidableEq, Repr

-- The blocks that connections hold are beside the analyzer.
structure World where
  analyzer : Analyzer
  loads : Nat
  blocks : Nat
  live : List Block
deriving DecidableEq, Repr

def World.new : World := ⟨Analyzer.new,0,0,[]⟩

def effect (w : World) : Event → World × List Call
  | .load opened stale found =>
    let (_,a,calls) := moduleLoader w.analyzer w.loads opened stale found
    ({w with analyzer := a,loads := w.loads+1},calls)
  | .loadPacketAnalyzer boot named loadOnBoot enableOnBoot opened stale found =>
    let (_,a,calls) := loadPacketAnalyzer w.analyzer boot named loadOnBoot enableOnBoot w.loads opened stale found
    ({w with analyzer := a,loads := w.loads+1},calls)
  | .unload closed =>
    let (_,a,calls) := moduleUnload w.analyzer closed
    ({w with analyzer := a},calls)
  | .setEnable on => ({w with analyzer := (setEnable w.analyzer on).2},[])
  | .setSafeMode on => ({w with analyzer := setSafeMode w.analyzer on},[])
  | .allocate returned =>
    let (data,a,calls) := analyzerAllocate w.analyzer w.blocks returned
    ({w with analyzer := a,blocks := w.blocks+1,live := data.toList ++ w.live},calls)
  | .analyze data caught value =>
    let (_,a,calls) := analyzePacket w.analyzer data caught value
    ({w with analyzer := a},calls)
  | .release data closed =>
    let (a,calls) := analyzerRelease w.analyzer data closed
    ({w with analyzer := a,live := data.elim w.live w.live.erase},calls)

def step (w : World) (event : Event) : World := (effect w event).1

-- A connection gives back, or has analyzed, what it was given and has not
-- given back yet: a block, or NULL.
def Allowed (w : World) : Event → Prop
  | .analyze data _ _ | .release data _ => ∀ block, data = some block → block ∈ w.live
  | _ => True

-- The count is the number of blocks, and every block is from the plugin that
-- is loaded.
structure Valid (a : Analyzer) (live : List Block) : Prop where
  counted : a.referenceCount = live.length
  owned : ∀ block ∈ live, a.pluggableAnalyzer = some block.load
  opened : ∀ load, a.pluggableAnalyzer = some load → a.library = some load

-- A call is confined if its block belongs to the plugin that is called, and
-- the library is closed with no block left.
def Confined (w next : World) : Call → Prop
  | .init _ | .allocate _ => True
  | .release load block | .analyze load block => block ∈ w.live ∧ block.load = load
  | .dlclose _ => next.live = []

theorem new_valid : Valid Analyzer.new [] :=
  ⟨rfl,fun _ member => (by cases member),fun _ loaded => (by cases loaded)⟩

namespace Valid

variable {a : Analyzer} {live : List Block}

theorem unloaded (valid : Valid a live) (empty : a.pluggableAnalyzer = none) : live = [] := by
  cases live with
  | nil => rfl
  | cons block rest =>
      have loaded := valid.owned block (by simp)
      rw [empty] at loaded
      cases loaded

theorem idle (valid : Valid a live) (low : a.referenceCount ≤ 0) : live = [] := by
  have counted := valid.counted
  exact List.eq_nil_of_length_eq_zero (by omega)

theorem flags (valid : Valid a live) (count : b.referenceCount = a.referenceCount)
    (plugin : b.pluggableAnalyzer = a.pluggableAnalyzer) (library : b.library = a.library) : Valid b live :=
  ⟨count.trans valid.counted,fun block member => plugin.trans (valid.owned block member),
    fun load loaded => library.trans (valid.opened load (plugin.symm.trans loaded))⟩

theorem moduleLoader (valid : Valid a live) (load : Nat) (opened stale found : Bool) :
    Valid (moduleLoader a load opened stale found).2.1 live ∧
      ∀ call ∈ (moduleLoader a load opened stale found).2.2, call = .init load := by
  cases plugin : a.pluggableAnalyzer with
  | some other => simp only [PacketAnalyzer.moduleLoader,plugin]; exact ⟨valid,fun call made => (by cases made)⟩
  | none =>
      have empty := valid.unloaded plugin
      subst empty
      have counted : a.referenceCount = 0 := valid.counted
      have still : ∀ b : Analyzer, b.referenceCount = a.referenceCount → b.pluggableAnalyzer = none → Valid b [] :=
        fun b count nothing => ⟨count.trans counted,fun _ member => (by cases member),
          fun load loaded => (by rw [nothing] at loaded; cases loaded)⟩
      simp only [PacketAnalyzer.moduleLoader,plugin]
      split
      · exact ⟨still _ rfl rfl,fun call made => (by cases made)⟩
      · split
        · exact ⟨still _ rfl rfl,fun call made => (by cases made)⟩
        · split
          · refine ⟨⟨counted,fun _ member => (by cases member),fun other loaded => loaded⟩,?_⟩
            intro call made
            exact List.mem_singleton.mp made
          · exact ⟨still _ rfl rfl,fun call made => (by cases made)⟩

theorem moduleUnload (valid : Valid a live) (closed : Bool) :
    Valid (moduleUnload a closed).2.1 live ∧
      ∀ call ∈ (moduleUnload a closed).2.2, (∃ library, call = .dlclose library) ∧ live = [] := by
  cases plugin : a.pluggableAnalyzer with
  | none => simp only [PacketAnalyzer.moduleUnload,plugin]; exact ⟨valid,fun call made => (by cases made)⟩
  | some load =>
      simp only [PacketAnalyzer.moduleUnload,plugin]
      split
      · next low =>
          have empty := valid.idle low
          subst empty
          rw [valid.opened load plugin]
          cases closed with
          | false | true =>
              refine ⟨⟨valid.counted,fun _ member => (by cases member),fun _ loaded => (by cases loaded)⟩,?_⟩
              intro call made
              exact ⟨⟨load,List.mem_singleton.mp made⟩,rfl⟩
      · exact ⟨valid.flags rfl plugin.symm rfl,fun call made => (by cases made)⟩

theorem analyzerAllocate (valid : Valid a live) (number : Nat) (returned : Bool) :
    Valid (analyzerAllocate a number returned).2.1 ((analyzerAllocate a number returned).1.toList ++ live) ∧
      ∀ call ∈ (analyzerAllocate a number returned).2.2, ∃ load, call = .allocate load := by
  cases plugin : a.pluggableAnalyzer with
  | none => simp only [PacketAnalyzer.analyzerAllocate,plugin]; exact ⟨valid,fun call made => (by cases made)⟩
  | some load =>
      simp only [PacketAnalyzer.analyzerAllocate,plugin]
      split
      · split
        · refine ⟨⟨?_,?_,fun other loaded => valid.opened other (plugin.trans loaded)⟩,
            fun call made => ⟨load,List.mem_singleton.mp made⟩⟩
          · have counted := valid.counted
            change a.referenceCount+1 = ((live.length+1 : Nat) : Int)
            omega
          · intro block member
            rcases List.mem_cons.mp member with rfl | old
            · rfl
            · exact plugin.symm.trans (valid.owned block old)
        · exact ⟨valid,fun call made => ⟨load,List.mem_singleton.mp made⟩⟩
      · exact ⟨valid,fun call made => (by cases made)⟩

theorem analyzePacket (valid : Valid a live) (data : Option Block) (caught : Bool) (value : UInt64) :
    Valid (analyzePacket a data caught value).2.1 live ∧
      ∀ call ∈ (analyzePacket a data caught value).2.2, ∃ load block, call = .analyze load block ∧
        data = some block ∧ a.pluggableAnalyzer = some load := by
  unfold PacketAnalyzer.analyzePacket
  split
  · next block load enabled plugin =>
      split
      · exact ⟨valid.flags rfl rfl rfl,fun call made => ⟨load,block,List.mem_singleton.mp made,rfl,plugin⟩⟩
      · exact ⟨valid,fun call made => ⟨load,block,List.mem_singleton.mp made,rfl,plugin⟩⟩
  · exact ⟨valid,fun call made => (by cases made)⟩

-- The block is given back before the library may be closed.
theorem analyzerRelease (valid : Valid a live) (member : block ∈ live) (closed : Bool) :
    Valid (analyzerRelease a (some block) closed).1 (live.erase block) ∧
      ∀ call ∈ (analyzerRelease a (some block) closed).2, call = .release block.load block ∨
        (∃ library, call = .dlclose library) ∧ live.erase block = [] := by
  have plugin := valid.owned block member
  have less : Valid {a with referenceCount := a.referenceCount-1} (live.erase block) := by
    refine ⟨?_,fun other kept => valid.owned other (List.mem_of_mem_erase kept),valid.opened⟩
    have counted := valid.counted
    have length := List.length_erase_of_mem member
    have positive := List.length_pos_of_mem member
    change a.referenceCount-1 = _
    omega
  simp only [PacketAnalyzer.analyzerRelease,plugin]
  rw [plugin] at less
  split
  · obtain ⟨after,closes⟩ := less.moduleUnload closed
    refine ⟨after,fun call made => ?_⟩
    rcases List.mem_cons.mp made with rfl | later
    · exact .inl rfl
    · exact .inr (closes call later)
  · exact ⟨less,fun call made => .inl (List.mem_singleton.mp made)⟩

end Valid

theorem loadPacketAnalyzer_valid (valid : Valid a live) (boot named : Bool) (loadOnBoot enableOnBoot : Int)
    (load : Nat) (opened stale found : Bool) :
    Valid (loadPacketAnalyzer a boot named loadOnBoot enableOnBoot load opened stale found).2.1 live ∧
      ∀ call ∈ (loadPacketAnalyzer a boot named loadOnBoot enableOnBoot load opened stale found).2.2,
        call = .init load := by
  obtain ⟨after,inits⟩ := valid.moduleLoader load opened stale found
  unfold loadPacketAnalyzer
  split
  · exact ⟨valid,fun call made => (by cases made)⟩
  · split
    · dsimp only
      split
      · refine ⟨?_,inits⟩
        dsimp only
        split
        · exact after.flags rfl rfl rfl
        · exact after
      · exact ⟨after,inits⟩
    · exact ⟨valid,fun call made => (by cases made)⟩

theorem effect_confined (valid : Valid w.analyzer w.live) (event : Event) (allowed : Allowed w event) :
    Valid (step w event).analyzer (step w event).live ∧
      ∀ call ∈ (effect w event).2, Confined w (step w event) call := by
  cases event with
  | load opened stale found =>
      obtain ⟨after,inits⟩ := valid.moduleLoader w.loads opened stale found
      refine ⟨after,fun call made => ?_⟩
      rw [inits call made]
      trivial
  | loadPacketAnalyzer boot named loadOnBoot enableOnBoot opened stale found =>
      obtain ⟨after,inits⟩ := loadPacketAnalyzer_valid valid boot named loadOnBoot enableOnBoot w.loads opened stale found
      refine ⟨after,fun call made => ?_⟩
      rw [inits call made]
      trivial
  | unload closed =>
      obtain ⟨after,closes⟩ := valid.moduleUnload closed
      refine ⟨after,fun call made => ?_⟩
      obtain ⟨⟨library,rfl⟩,empty⟩ := closes call made
      exact empty
  | setEnable on => exact ⟨valid.flags rfl rfl rfl,fun call made => (by cases made)⟩
  | setSafeMode on => exact ⟨valid.flags rfl rfl rfl,fun call made => (by cases made)⟩
  | allocate returned =>
      obtain ⟨after,allocates⟩ := valid.analyzerAllocate w.blocks returned
      refine ⟨after,fun call made => ?_⟩
      obtain ⟨load,rfl⟩ := allocates call made
      trivial
  | analyze data caught value =>
      obtain ⟨after,analyzes⟩ := valid.analyzePacket data caught value
      refine ⟨after,fun call made => ?_⟩
      obtain ⟨load,block,rfl,given,plugin⟩ := analyzes call made
      have member := allowed block given
      exact ⟨member,Option.some.inj ((valid.owned block member).symm.trans plugin)⟩
  | release data closed =>
      cases data with
      | none => exact ⟨valid,fun call made => (by cases made)⟩
      | some block =>
          have member := allowed block rfl
          obtain ⟨after,releases⟩ := valid.analyzerRelease member closed
          refine ⟨after,fun call made => ?_⟩
          rcases releases call made with rfl | ⟨⟨library,rfl⟩,empty⟩
          · exact ⟨member,rfl⟩
          · exact empty

theorem run_valid (events : List Event) (along : Machine.Along step Allowed World.new events) :
    Valid (Machine.run step World.new events).analyzer (Machine.run step World.new events).live :=
  Machine.run_invariant (fun w => Valid w.analyzer w.live) new_valid
    (fun _ event valid allowed => (effect_confined valid event allowed).1) events along

-- Along every run the count is that of the live blocks, all of them belong to
-- the plugin that is loaded, and so do the blocks of the next call.
theorem plugin_data_confined (events : List Event) (along : Machine.Along step Allowed World.new events) :
    let w := Machine.run step World.new events
    w.analyzer.referenceCount = w.live.length ∧ 0 ≤ w.analyzer.referenceCount ∧
    (∀ block ∈ w.live, w.analyzer.pluggableAnalyzer = some block.load ∧ w.analyzer.library = some block.load) ∧
    ∀ event, Allowed w event → ∀ call ∈ (effect w event).2, Confined w (step w event) call := by
  intro w
  have valid : Valid w.analyzer w.live := run_valid events along
  refine ⟨valid.counted,?_,?_,fun event allowed => (effect_confined valid event allowed).2⟩
  · rw [valid.counted]
    exact Int.natCast_nonneg _
  · intro block member
    have plugin := valid.owned block member
    exact ⟨plugin,valid.opened _ plugin⟩

-- A plugin that is unloaded while a block is live stays until it is released.
theorem plugin_data_confined_deferred_unload :
    let w := Machine.run step World.new [.load true false true,.setEnable true,.allocate true,.unload true]
    w.analyzer.referenceCount = 1 ∧ w.analyzer.pluggableAnalyzer = some 0 ∧
      (effect w (.release (some ⟨0,0⟩) true)).2 = [.release 0 ⟨0,0⟩,.dlclose 0] := by
  have confined := plugin_data_confined [.load true false true,.setEnable true,.allocate true,.unload true]
    ⟨trivial,trivial,trivial,trivial,trivial⟩
  exact ⟨confined.1,(confined.2.2.1 ⟨0,0⟩ (by decide)).1,by decide⟩

end TcpProxy.PacketAnalyzer
