import TcpProxy.PacketAnalyzer.Plugin

namespace TcpProxy.PacketAnalyzer

structure AsBefore (a next : Analyzer) : Prop where
  pluggableAnalyzer : next.pluggableAnalyzer = a.pluggableAnalyzer
  library : next.library = a.library
  pluginEnable : next.pluginEnable = a.pluginEnable
  autoUnload : next.autoUnload = a.autoUnload
  referenceCount : next.referenceCount = a.referenceCount

theorem AsBefore.refl (a : Analyzer) : AsBefore a a := ⟨rfl,rfl,rfl,rfl,rfl⟩

-- The library that dlopen has returned in a call of module_loader.
def openedBy (a : Analyzer) (load : Nat) (opened : Bool) : Option Nat :=
  if a.pluggableAnalyzer = none ∧ opened then some load else none

-- A load that answers false changes nothing and keeps nothing open.
def LoadIntact (a : Analyzer) (load : Nat) (opened stale found : Bool) : Prop :=
  let loaded := moduleLoader a load opened stale found
  loaded.1 = false → AsBefore a loaded.2.1 ∧
    ∀ library, openedBy a load opened = some library → .dlclose library ∈ loaded.2.2

-- An unload that answers false leaves a plugin that is loaded as it is, but
-- that it may have been marked for later.
def UnloadIntact (a : Analyzer) (closed : Bool) : Prop :=
  let unloaded := moduleUnload a closed
  unloaded.1 = false → a.pluggableAnalyzer.isSome → unloaded.2.1 = a ∨ unloaded.2.1 = {a with autoUnload := true}

-- The state in which analyzer_release unloads the plugin, if it does.
def deferredUnload (a : Analyzer) (data : Option Block) : Option Analyzer :=
  if data.isSome ∧ a.pluggableAnalyzer.isSome ∧ a.referenceCount-1 = 0 ∧ a.autoUnload then
    some {a with referenceCount := a.referenceCount-1}
  else none

-- load_packet_analyzer gets as far as module_loader.
def triesToLoad (boot named : Bool) (loadOnBoot : Int) : Bool := !(boot && loadOnBoot == 0) && named

def LoadPacketAnalyzerIntact (a : Analyzer) (boot named : Bool) (loadOnBoot enableOnBoot : Int) (load : Nat)
    (opened stale found : Bool) : Prop :=
  let loaded := loadPacketAnalyzer a boot named loadOnBoot enableOnBoot load opened stale found
  loaded.1 ≠ 0 → AsBefore a loaded.2.1 ∧ ∀ library, triesToLoad boot named loadOnBoot →
    openedBy a load opened = some library → .dlclose library ∈ loaded.2.2

-- The answer of the deferred unload is dropped.
def ReleaseIntact (a : Analyzer) (data : Option Block) (closed : Bool) : Prop :=
  let released := analyzerRelease a data closed
  ∀ before, deferredUnload a data = some before → (moduleUnload before closed).1 = false →
    released.1 = before ∨ released.1 = {before with autoUnload := true}

def Intact (w : World) : Event → Prop
  | .load opened stale found => LoadIntact w.analyzer w.loads opened stale found
  | .loadPacketAnalyzer boot named loadOnBoot enableOnBoot opened stale found =>
    LoadPacketAnalyzerIntact w.analyzer boot named loadOnBoot enableOnBoot w.loads opened stale found
  | .unload closed => UnloadIntact w.analyzer closed
  | .release data closed => ReleaseIntact w.analyzer data closed
  | _ => True

-- A plugin is there already, or all goes well, or dlopen finds nothing while
-- `library` is NULL anyway.
def LoadSpared (a : Analyzer) (opened stale found : Bool) : Prop :=
  a.pluggableAnalyzer ≠ none ∨ (opened ∧ !stale ∧ found) ∨ (!opened ∧ a.library = none)

-- There is nothing to unload yet, or dlclose succeeds.
def Spared (w : World) : Event → Prop
  | .load opened stale found => LoadSpared w.analyzer opened stale found
  | .loadPacketAnalyzer boot named loadOnBoot _ opened stale found =>
    triesToLoad boot named loadOnBoot → LoadSpared w.analyzer opened stale found
  | .unload closed => w.analyzer.pluggableAnalyzer = none ∨ 0 < w.analyzer.referenceCount ∨ closed
  | .release data closed => deferredUnload w.analyzer data = none ∨ closed
  | _ => True

theorem deferredUnload_spec (deferred : deferredUnload a data = some before) :
    before.pluggableAnalyzer.isSome ∧ before.pluggableAnalyzer = a.pluggableAnalyzer ∧ before.library = a.library ∧
      before.referenceCount = 0 ∧ ∀ closed, (analyzerRelease a data closed).1 = (moduleUnload before closed).2.1 := by
  unfold deferredUnload at deferred
  split at deferred
  · rename_i due
    obtain ⟨given,loaded,last⟩ := due
    obtain rfl := Option.some.inj deferred
    obtain ⟨block,rfl⟩ := Option.isSome_iff_exists.mp given
    refine ⟨loaded,rfl,rfl,last.1,fun closed => ?_⟩
    obtain ⟨load,plugin⟩ := Option.isSome_iff_exists.mp loaded
    simp [analyzerRelease,plugin,last]
  · cases deferred

-- In every state of a run the library of the plugin that is loaded is the one
-- that is open.
def Held (a : Analyzer) : Prop := ∀ load, a.pluggableAnalyzer = some load → a.library = some load

theorem load_intact_iff (a : Analyzer) (load : Nat) (opened stale found : Bool) :
    LoadIntact a load opened stale found ↔ LoadSpared a opened stale found := by
  unfold LoadIntact LoadSpared
  cases plugin : a.pluggableAnalyzer with
  | some other => exact iff_of_true (by simp [moduleLoader,openedBy,plugin,AsBefore.refl]) (.inl (by simp))
  | none =>
      cases opened with
      | false =>
          simp only [moduleLoader,openedBy,plugin]
          constructor
          · exact fun intact => .inr (.inr ⟨rfl,(intact rfl).1.library.symm⟩)
          · intro spared _
            obtain ⟨_,empty⟩ := (spared.resolve_left (by simp)).resolve_left (by simp)
            exact ⟨⟨plugin.symm,empty.symm,rfl,rfl,rfl⟩,by simp⟩
      | true =>
          have kept : openedBy a load true = some load := by simp [openedBy,plugin]
          cases stale with
          | true =>
              refine iff_of_false (fun intact => ?_) (by simp)
              simp only [moduleLoader,plugin] at intact
              exact absurd ((intact rfl).2 load kept) (by simp)
          | false =>
              cases found with
              | true => exact iff_of_true (by simp [moduleLoader,plugin]) (.inr (.inl (by simp)))
              | false =>
                  refine iff_of_false (fun intact => ?_) (by simp)
                  simp only [moduleLoader,plugin] at intact
                  exact absurd ((intact rfl).2 load kept) (by simp)

theorem unload_intact_iff (held : Held a) (closed : Bool) :
    UnloadIntact a closed ↔ a.pluggableAnalyzer = none ∨ 0 < a.referenceCount ∨ closed := by
  unfold UnloadIntact
  cases plugin : a.pluggableAnalyzer with
  | none => exact iff_of_true (by simp) (.inl rfl)
  | some load =>
      by_cases busy : 0 < a.referenceCount
      · exact iff_of_true (by simp [moduleUnload,plugin,Int.not_le.mpr busy]) (.inr (.inl busy))
      · have idle : a.referenceCount ≤ 0 := Int.not_lt.mp busy
        have library := held load plugin
        cases closed with
        | true => exact iff_of_true (by simp [moduleUnload,plugin,idle,library]) (.inr (.inr rfl))
        | false =>
            have outcome : moduleUnload a false = (false,{a with pluggableAnalyzer := none},[.dlclose load]) := by
              simp [moduleUnload,plugin,idle,library]
            refine iff_of_false (fun intact => ?_) (by simp [busy])
            rw [outcome] at intact
            rcases intact rfl rfl with same | same
            · have lost : none = a.pluggableAnalyzer := congrArg Analyzer.pluggableAnalyzer same
              exact absurd (lost.trans plugin) (by simp)
            · have lost : none = some load := congrArg Analyzer.pluggableAnalyzer same
              exact absurd lost (by simp)

theorem loader_held (held : Held a) (load : Nat) (opened stale found : Bool) :
    Held (moduleLoader a load opened stale found).2.1 := by
  unfold moduleLoader
  split
  · exact held
  · rename_i nothing
    have still : ∀ b : Analyzer, b.pluggableAnalyzer = none → Held b := fun b empty load loaded => by
      rw [empty] at loaded
      cases loaded
    split
    · exact still _ nothing
    · split
      · exact still _ nothing
      · split
        · exact fun other loaded => loaded
        · exact still _ nothing

theorem unload_held (held : Held a) (closed : Bool) : Held (moduleUnload a closed).2.1 := by
  unfold moduleUnload
  split
  · exact held
  · split
    · split
      · exact fun load loaded => by cases loaded
      · split
        · exact fun load loaded => by cases loaded
        · exact fun load loaded => by cases loaded
    · exact held

theorem Held.congr (held : Held a) (plugin : b.pluggableAnalyzer = a.pluggableAnalyzer)
    (library : b.library = a.library) : Held b :=
  fun load loaded => library.trans (held load (plugin.symm.trans loaded))

theorem loadPacketAnalyzer_loads (a : Analyzer) (tries : triesToLoad boot named loadOnBoot = true)
    (enableOnBoot : Int) (load : Nat) (opened stale found : Bool) :
    let loaded := moduleLoader a load opened stale found
    loadPacketAnalyzer a boot named loadOnBoot enableOnBoot load opened stale found =
      if loaded.1 then (0,if boot && enableOnBoot != 0 then (setEnable loaded.2.1 true).2 else loaded.2.1,loaded.2.2)
      else (2,loaded.2.1,loaded.2.2) := by
  obtain ⟨boots,rfl⟩ := Bool.and_eq_true_iff.mp tries
  have goes : (boot && loadOnBoot == 0) = false := Bool.not_eq_true' _ |>.mp boots
  simp only [loadPacketAnalyzer,goes,if_true]
  rfl

theorem loadPacketAnalyzer_declines (a : Analyzer) (tries : triesToLoad boot named loadOnBoot = false)
    (enableOnBoot : Int) (load : Nat) (opened stale found : Bool) :
    ∃ code, code ≠ 0 ∧ loadPacketAnalyzer a boot named loadOnBoot enableOnBoot load opened stale found = (code,a,[]) := by
  unfold loadPacketAnalyzer
  cases boots : boot && loadOnBoot == 0 with
  | true => exact ⟨1,by decide,rfl⟩
  | false =>
      have unnamed : named = false := by simpa [triesToLoad,boots] using tries
      rw [unnamed]
      exact ⟨3,by decide,rfl⟩

theorem step_held (held : Held w.analyzer) (event : Event) : Held (step w event).analyzer := by
  cases event with
  | load opened stale found => exact loader_held held w.loads opened stale found
  | loadPacketAnalyzer boot named loadOnBoot enableOnBoot opened stale found =>
      have loaded := loader_held held w.loads opened stale found
      simp only [step,effect]
      cases tries : triesToLoad boot named loadOnBoot with
      | false =>
          obtain ⟨_,_,same⟩ := loadPacketAnalyzer_declines w.analyzer tries enableOnBoot w.loads opened stale found
          rw [same]
          exact held
      | true =>
          rw [loadPacketAnalyzer_loads w.analyzer tries]
          split
          · dsimp only
            split
            · exact loaded.congr rfl rfl
            · exact loaded
          · exact loaded
  | unload closed => exact unload_held held closed
  | setEnable on => exact held.congr rfl rfl
  | setSafeMode on => exact held.congr rfl rfl
  | allocate returned =>
      simp only [step,effect,analyzerAllocate]
      split
      · exact held
      · split
        · split
          · exact held.congr rfl rfl
          · exact held
        · exact held
  | analyze data caught value =>
      simp only [step,effect,analyzePacket]
      split
      · split
        · exact held.congr rfl rfl
        · exact held
      · exact held
  | release data closed =>
      simp only [step,effect,analyzerRelease]
      split
      · split
        · exact @unload_held {w.analyzer with referenceCount := w.analyzer.referenceCount-1} (held.congr rfl rfl) closed
        · exact held.congr rfl rfl
      · exact held

theorem run_held (events : List Event) : Held (Machine.run step World.new events).analyzer :=
  Machine.run_invariant (fun w : World => Held w.analyzer) (fun load loaded => by cases loaded)
    (fun _ event held _ => step_held held event) events (Machine.along_true events)

theorem load_packet_analyzer_intact_iff (a : Analyzer) (boot named : Bool) (loadOnBoot enableOnBoot : Int) (load : Nat)
    (opened stale found : Bool) :
    LoadPacketAnalyzerIntact a boot named loadOnBoot enableOnBoot load opened stale found ↔
      (triesToLoad boot named loadOnBoot → LoadSpared a opened stale found) := by
  unfold LoadPacketAnalyzerIntact
  cases tries : triesToLoad boot named loadOnBoot with
  | false =>
      obtain ⟨code,_,same⟩ := loadPacketAnalyzer_declines a tries enableOnBoot load opened stale found
      rw [same]
      exact iff_of_true (fun _ => ⟨.refl _,by simp⟩) (by simp)
  | true =>
      rw [loadPacketAnalyzer_loads a tries]
      have intact := load_intact_iff a load opened stale found
      unfold LoadIntact at intact
      cases answer : (moduleLoader a load opened stale found).1 with
      | true => simpa [answer] using intact
      | false => simpa [answer] using intact

theorem release_intact_iff (held : Held a) (data : Option Block) (closed : Bool) :
    ReleaseIntact a data closed ↔ deferredUnload a data = none ∨ closed := by
  cases deferred : deferredUnload a data with
  | none => exact iff_of_true (fun _ wrong => absurd (deferred.symm.trans wrong) (by simp)) (.inl rfl)
  | some before =>
      obtain ⟨loaded,plugin,library,last,released⟩ := deferredUnload_spec deferred
      have unloads : ReleaseIntact a data closed ↔ UnloadIntact before closed := by
        constructor
        · intro intact failed _
          exact released closed ▸ intact before deferred failed
        · intro intact other again failed
          obtain rfl := Option.some.inj (deferred.symm.trans again)
          rw [released closed]
          exact intact failed loaded
      rw [unloads,unload_intact_iff (held.congr plugin library)]
      simp [Option.isSome_iff_ne_none.mp loaded,last]

-- A load that fails has set `library` by then and does not close it; an unload
-- that fails has forgotten the plugin by then.
theorem failures_intact_iff (events : List Event) (event : Event) :
    let w := Machine.run step World.new events
    Intact w event ↔ Spared w event := by
  intro w
  have held : Held w.analyzer := run_held events
  cases event with
  | load opened stale found => exact load_intact_iff w.analyzer w.loads opened stale found
  | loadPacketAnalyzer boot named loadOnBoot enableOnBoot opened stale found =>
      exact load_packet_analyzer_intact_iff w.analyzer boot named loadOnBoot enableOnBoot w.loads opened stale found
  | unload closed => exact unload_intact_iff held closed
  | setEnable on => exact Iff.rfl
  | setSafeMode on => exact Iff.rfl
  | allocate returned => exact Iff.rfl
  | analyze data caught value => exact Iff.rfl
  | release data closed => exact release_intact_iff held data closed

-- dlclose fails for a plugin that nobody uses: it is forgotten while its library
-- stays open. A load whose symbol is missing leaves its library open.
theorem failed_unload_forgets_plugin :
    ¬ Intact (Machine.run step World.new [.load true false true]) (.unload false) ∧
      ¬ Intact World.new (.load true false false) := by
  refine ⟨fun intact => ?_,fun intact => ?_⟩
  · have spared := (unload_intact_iff (run_held [.load true false true]) false).mp intact
    exact absurd spared (by decide)
  · have spared := (load_intact_iff Analyzer.new 0 true false false).mp intact
    unfold LoadSpared at spared
    exact absurd spared (by decide)

end TcpProxy.PacketAnalyzer
