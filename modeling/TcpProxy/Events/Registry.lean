import Mathlib.Data.List.Nodup
import Mathlib.Data.List.Perm.Subperm
import Mathlib.Data.List.Range
import TcpProxy.Lib.Run
import TcpProxy.Events.EventLoop

namespace TcpProxy.Events

-- The finite map the registry stands for: live index against registration.
abbrev Live (Handler Args : Type) := List (Nat × Registration Handler Args)

variable {Handler Args : Type} {data : EventLoopData Handler Args} {live : Live Handler Args}

structure Represents (data : EventLoopData Handler Args) (live : Live Handler Args) : Prop where
  designated : ∀ row ∈ live, row.1 < data.maxEvents ∧ data.slot row.1 = row.2 ∧ 0 ≤ row.2.fd
  covered : ∀ i < data.maxEvents, data.fds i = -1 ∨ i ∈ live.map Prod.fst
  unshared : (live.map Prod.fst).Nodup
  counted : data.numOfEvents = live.length
  bounded : data.maxEvents ≤ maxEventsLimit
  trimmed : 0 < data.maxEvents → data.maxEvents-1 ∈ live.map Prod.fst

theorem new_represents (handler : Handler) (args : Args) : Represents (newEventLoop handler args) [] := by
  refine ⟨by simp,?_,by simp,rfl,by simp [newEventLoop],?_⟩
  · intro i below; exact absurd below (Nat.not_lt_zero i)
  · intro positive; exact absurd positive (Nat.lt_irrefl 0)

theorem Represents.live_fd (valid : Represents data live) (member : i ∈ live.map Prod.fst) :
    i < data.maxEvents ∧ 0 ≤ data.fds i := by
  obtain ⟨row,present,rfl⟩ := List.mem_map.mp member
  obtain ⟨below,same,nonneg⟩ := valid.designated row present
  refine ⟨below,?_⟩
  have fdAt : data.fds row.1 = row.2.fd := congrArg Registration.fd same
  omega

theorem Represents.free_not_live (valid : Represents data live) (free : data.fds i = -1) :
    i ∉ live.map Prod.fst := by
  intro member
  have nonneg := (valid.live_fd member).2
  omega

theorem Represents.perm (valid : Represents data live) (same : live.Perm other) : Represents data other := by
  have keys := same.map Prod.fst
  refine ⟨fun row member => valid.designated row (same.mem_iff.mpr member),
    fun i below => (valid.covered i below).imp id keys.mem_iff.mp,keys.nodup_iff.mp valid.unshared,?_,valid.bounded,
    fun positive => keys.mem_iff.mp (valid.trimmed positive)⟩
  rw [valid.counted,same.length_eq]

theorem Represents.length_le (valid : Represents data live) : live.length ≤ 1024 := by
  have inside : live.map Prod.fst ⊆ List.range data.maxEvents :=
    fun i member => List.mem_range.mpr (valid.live_fd member).1
  have length := (List.subperm_of_subset valid.unshared inside).length_le
  have bound := valid.bounded
  simp only [List.length_map,List.length_range,maxEventsLimit] at length bound
  omega

theorem Represents.full_length (valid : Represents data live)
    (full : ∀ i < data.maxEvents, data.fds i ≠ -1) : live.length = data.maxEvents := by
  have same : (live.map Prod.fst).Perm (List.range data.maxEvents) := by
    refine (List.perm_ext_iff_of_nodup valid.unshared List.nodup_range).mpr ?_
    intro i
    rw [List.mem_range]
    exact ⟨fun member => (valid.live_fd member).1,fun below => (valid.covered i below).resolve_left (full i below)⟩
  simpa using same.length_eq

theorem find_free_none (none : (List.range data.maxEvents).find? (fun i => data.fds i == -1) = none) :
    ∀ i < data.maxEvents, data.fds i ≠ -1 := by
  intro i below
  simpa using List.find?_eq_none.mp none i (List.mem_range.mpr below)

-- What a successful search for a slot gives: an index outside the map, and a
-- table that differs from the old one in its counters only.
theorem findFirstFree_cases (valid : Represents data live) :
    (∃ i : Nat, findFirstFree data = ((i : Int),{data with numOfEvents := data.numOfEvents+1}) ∧
      i < data.maxEvents ∧ data.fds i = -1) ∨
    (findFirstFree data = ((data.maxEvents : Int),
        {data with maxEvents := data.maxEvents+1,numOfEvents := data.numOfEvents+1}) ∧
      data.maxEvents < maxEventsLimit) ∨
    (findFirstFree data = (-1,data) ∧ live.length = maxEventsLimit) := by
  unfold findFirstFree
  cases found : (List.range data.maxEvents).find? (fun i => data.fds i == -1) with
  | some i =>
      have below := List.mem_range.mp (List.mem_of_find?_eq_some found)
      have free : data.fds i = -1 := by simpa using List.find?_some found
      exact .inl ⟨i,rfl,below,free⟩
  | none =>
      by_cases room : data.maxEvents < maxEventsLimit
      · exact .inr (.inl ⟨by simp [room],room⟩)
      · have length := valid.full_length (find_free_none found)
        have bound := valid.bounded
        exact .inr (.inr ⟨by simp [room],by omega⟩)

theorem add_represents (valid : Represents data live) (nonneg : 0 ≤ fd) (handler : Handler) (args : Args) :
    (∃ index : Nat, (evAddEvent data fd handler args true).1 = index ∧ index ∉ live.map Prod.fst ∧
      Represents (evAddEvent data fd handler args true).2 ((index,⟨fd,handler,args⟩) :: live)) ∨
    (evAddEvent data fd handler args true = (-2,data) ∧ live.length = maxEventsLimit) := by
  have written : ∀ (i top : Nat), i ∉ live.map Prod.fst → i < top → data.maxEvents ≤ top → top ≤ maxEventsLimit →
      (∀ j < top, j = i ∨ j < data.maxEvents) → (i = top-1 ∨ top = data.maxEvents) →
      Represents {data with
        fds := Function.update data.fds i fd,
        handlers := Function.update data.handlers i handler,
        args := Function.update data.args i args,
        maxEvents := top,
        numOfEvents := data.numOfEvents+1} ((i,⟨fd,handler,args⟩) :: live) := by
    intro i top fresh below grown limit others last
    refine ⟨?_,?_,?_,?_,limit,?_⟩
    · intro row member
      rcases List.mem_cons.mp member with rfl | old
      · exact ⟨below,by simp [EventLoopData.slot],nonneg⟩
      · obtain ⟨under,same,positive⟩ := valid.designated row old
        have different : row.1 ≠ i := fun equal => fresh (equal ▸ List.mem_map_of_mem old)
        refine ⟨Nat.lt_of_lt_of_le under grown,?_,positive⟩
        simpa [EventLoopData.slot,Function.update_of_ne different] using same
    · intro j under
      by_cases equal : j = i
      · exact .inr (by simp [equal])
      · have inside := (others j under).resolve_left equal
        simp only [Function.update_of_ne equal,List.map_cons,List.mem_cons]
        exact (valid.covered j inside).imp id .inr
    · exact List.nodup_cons.mpr ⟨fresh,valid.unshared⟩
    · simp [valid.counted]
    · intro positive
      rcases last with equal | same
      · simp [equal]
      · subst same
        exact List.mem_cons_of_mem _ (valid.trimmed positive)
  rcases findFirstFree_cases valid with ⟨i,search,below,free⟩ | ⟨search,room⟩ | ⟨search,full⟩
  · have fresh := valid.free_not_live free
    refine .inl ⟨i,by simp [evAddEvent,search],fresh,?_⟩
    simpa [evAddEvent,search] using
      written i data.maxEvents fresh below (Nat.le_refl _) valid.bounded (fun j under => .inr under) (.inr rfl)
  · have fresh : data.maxEvents ∉ live.map Prod.fst :=
      fun member => Nat.lt_irrefl _ (valid.live_fd member).1
    refine .inl ⟨data.maxEvents,by simp [evAddEvent,search],fresh,?_⟩
    simpa [evAddEvent,search] using
      written data.maxEvents (data.maxEvents+1) fresh (Nat.lt_succ_self _) (Nat.le_succ _) room
        (fun j under => by omega) (.inl rfl)
  · exact .inr ⟨by simp [evAddEvent,search],full⟩

theorem add_refused (data : EventLoopData Handler Args) (fd : Int) (handler : Handler) (args : Args) :
    (evAddEvent data fd handler args false).1 < 0 := by
  unfold evAddEvent
  dsimp only
  split
  · simp
  · simp

theorem trim_le (fds : Nat → Int) (top : Nat) : trim fds top ≤ top := by
  induction top with
  | zero => exact Nat.le_refl 0
  | succ top ih =>
      unfold trim
      split
      · omega
      · exact Nat.le_refl _

theorem trim_last (fds : Nat → Int) (top : Nat) (positive : 0 < trim fds top) : 0 ≤ fds (trim fds top - 1) := by
  induction top with
  | zero => exact absurd positive (Nat.lt_irrefl 0)
  | succ top ih =>
      by_cases negative : fds top < 0
      · simp only [trim,negative,if_true] at positive ⊢
        exact ih positive
      · simp only [trim,negative,if_false,Nat.add_sub_cancel]
        omega

-- Trimming passes over holes only, so no live index is cut off.
theorem trim_keeps (fds : Nat → Int) (top i : Nat) (below : i < top) (nonneg : 0 ≤ fds i) : i < trim fds top := by
  induction top with
  | zero => exact absurd below (Nat.not_lt_zero i)
  | succ top ih =>
      by_cases negative : fds top < 0
      · simp only [trim,negative,if_true]
        have different : i ≠ top := by rintro rfl; omega
        exact ih (by omega)
      · simpa only [trim,negative,if_false] using below

def withoutIndex (live : Live Handler Args) (index : Nat) : Live Handler Args :=
  live.filter fun row => row.1 ≠ index

theorem mem_withoutIndex : row ∈ withoutIndex live index ↔ row ∈ live ∧ row.1 ≠ index := by
  simp [withoutIndex]

theorem withoutIndex_keys (live : Live Handler Args) (index : Nat) :
    (withoutIndex live index).map Prod.fst = (live.map Prod.fst).filter fun i => i ≠ index := by
  simp [withoutIndex,List.filter_map,Function.comp_def]

theorem withoutIndex_length (unshared : (live.map Prod.fst).Nodup) (member : index ∈ live.map Prod.fst) :
    (withoutIndex live index).length + 1 = live.length := by
  have erased : (live.map Prod.fst).erase index = (withoutIndex live index).map Prod.fst := by
    rw [withoutIndex_keys,unshared.erase_eq_filter]
    congr 1
    funext i
    by_cases equal : i = index <;> simp [equal]
  have length := List.length_erase_of_mem member
  rw [erased,List.length_map,List.length_map] at length
  have positive : 0 < live.length := by simpa using List.length_pos_of_mem member
  omega

theorem withoutIndex_cons (row : Nat × Registration Handler Args) (fresh : row.1 ∉ live.map Prod.fst) :
    withoutIndex (row :: live) row.1 = live := by
  simp only [withoutIndex,ne_eq,List.filter_cons,not_true_eq_false,decide_false,Bool.false_eq_true,if_false]
  refine List.filter_eq_self.mpr (fun other member => ?_)
  simp only [decide_eq_true_eq]
  exact fun equal => fresh (equal ▸ List.mem_map_of_mem member)

theorem remove_represents (valid : Represents data live) (member : index ∈ live.map Prod.fst) :
    Represents (evRemoveEvent data index).2 (withoutIndex live index) := by
  obtain ⟨below,_⟩ := valid.live_fd member
  have inside : (0 : Int) ≤ index ∧ (index : Int) < data.maxEvents := ⟨by omega,by omega⟩
  have kept : ∀ i ∈ (withoutIndex live index).map Prod.fst,
      i < trim (Function.update data.fds index (-1)) data.maxEvents := by
    intro i present
    rw [withoutIndex_keys,List.mem_filter] at present
    obtain ⟨old,nonneg⟩ := valid.live_fd present.1
    have different : i ≠ index := by simpa using present.2
    exact trim_keeps _ _ _ old (by simpa [Function.update_of_ne different] using nonneg)
  simp only [evRemoveEvent,inside,and_self,if_true,Int.toNat_natCast]
  refine ⟨?_,?_,?_,?_,Nat.le_trans (trim_le _ _) valid.bounded,?_⟩
  · intro row present
    obtain ⟨old,different⟩ := mem_withoutIndex.mp present
    obtain ⟨_,same,nonneg⟩ := valid.designated row old
    refine ⟨kept row.1 (List.mem_map_of_mem present),?_,nonneg⟩
    simpa [EventLoopData.slot,Function.update_of_ne different] using same
  · intro i under
    by_cases equal : i = index
    · exact .inl (by simp [equal])
    · have old := valid.covered i (Nat.lt_of_lt_of_le under (trim_le _ _))
      rw [withoutIndex_keys]
      simpa [Function.update_of_ne equal,equal] using old
  · rw [withoutIndex_keys]
    exact valid.unshared.filter _
  · have length := withoutIndex_length valid.unshared member
    have counted := valid.counted
    simp only
    omega
  · intro positive
    have nonneg := trim_last _ _ positive
    generalize cut : trim (Function.update data.fds index (-1)) data.maxEvents = top at positive nonneg ⊢
    have limit := trim_le (Function.update data.fds index (-1)) data.maxEvents
    have different : top-1 ≠ index := by
      intro equal
      simp [equal] at nonneg
    rw [Function.update_of_ne different] at nonneg
    have old := valid.covered (top-1) (by omega)
    rw [withoutIndex_keys,List.mem_filter]
    exact ⟨old.resolve_left (by omega),by simpa using different⟩

theorem find_slot (valid : Represents data live) (nonneg : 0 ≤ fd)
    (found : (List.range data.maxEvents).find? (fun i => fd == data.fds i) = some i) :
    (i,data.slot i) ∈ live ∧ (data.slot i).fd = fd := by
  have below := List.mem_range.mp (List.mem_of_find?_eq_some found)
  have fdAt : fd = data.fds i := by simpa using List.find?_some found
  refine ⟨?_,fdAt.symm⟩
  have member := (valid.covered i below).resolve_left (by omega)
  obtain ⟨row,present,rfl⟩ := List.mem_map.mp member
  rw [(valid.designated row present).2.1]
  exact present

-- The lookup of a descriptor reads the array; the map has the descriptor once.
theorem lookup_represents (valid : Represents data live) (once : (live.map fun row => row.2.fd).Nodup)
    (nonneg : 0 ≤ fd) :
    ((List.range data.maxEvents).find? (fun i => fd == data.fds i)).map data.slot =
      (live.find? fun row => row.2.fd == fd).map Prod.snd := by
  cases found : (List.range data.maxEvents).find? (fun i => fd == data.fds i) with
  | none =>
      have absent : live.find? (fun row => row.2.fd == fd) = none := by
        refine List.find?_eq_none.mpr ?_
        intro row present same
        obtain ⟨below,slotAt,_⟩ := valid.designated row present
        have fdAt : data.fds row.1 = row.2.fd := congrArg Registration.fd slotAt
        have missed := List.find?_eq_none.mp found row.1 (List.mem_range.mpr below)
        have equal : row.2.fd = fd := by simpa using same
        exact missed (by simp [fdAt,equal])
      rw [absent]; rfl
  | some i =>
      obtain ⟨present,fdAt⟩ := find_slot valid nonneg found
      cases other : live.find? (fun row => row.2.fd == fd) with
      | none => exact absurd (List.find?_eq_none.mp other _ present) (by simp [fdAt])
      | some row =>
          have member := List.mem_of_find?_eq_some other
          have same : row.2.fd = fd := by simpa using List.find?_some other
          have equal : row = (i,data.slot i) :=
            List.inj_on_of_nodup_map once member present (same.trans fdAt.symm)
          rw [equal]; rfl

theorem looping_represents (valid : Represents data live) (once : (live.map fun row => row.2.fd).Nodup)
    (ready : List Int) (nonneg : ∀ fd ∈ ready, 0 ≤ fd) :
    evLooping data (some ready) =
      ready.findSome? fun fd => (live.find? fun row => row.2.fd == fd).map Prod.snd := by
  induction ready with
  | nil => rfl
  | cons fd rest ih =>
      have first := lookup_represents valid once (nonneg fd (by simp))
      have others := ih (fun g member => nonneg g (List.mem_cons_of_mem _ member))
      simp only [evLooping,List.findSome?_cons] at others ⊢
      rw [first,others]

inductive Call (Handler Args : Type) where
  | addEvent (fd : Int) (handler : Handler) (args : Args)
  | removeEvent (index : Nat)

-- The map follows the calls and their answers only: an accepted add enters
-- its registration under the answered index, a removal takes that index out.
def call : EventLoopData Handler Args × Live Handler Args → Call Handler Args →
    EventLoopData Handler Args × Live Handler Args
  | (data,live),.addEvent fd handler args =>
    let answer := evAddEvent data fd handler args true
    (answer.2,if 0 ≤ answer.1 then (answer.1.toNat,⟨fd,handler,args⟩) :: live else live)
  | (data,live),.removeEvent index => ((evRemoveEvent data index).2,withoutIndex live index)

def CallAllowed (s : EventLoopData Handler Args × Live Handler Args) : Call Handler Args → Prop
  | .addEvent fd _ _ => 0 ≤ fd ∧ fd ∉ s.2.map fun row => row.2.fd
  | .removeEvent index => index ∈ s.2.map Prod.fst

instance (s : EventLoopData Handler Args × Live Handler Args) :
    (c : Call Handler Args) → Decidable (CallAllowed s c)
  | .addEvent fd _ _ => inferInstanceAs (Decidable (0 ≤ fd ∧ fd ∉ s.2.map fun row => row.2.fd))
  | .removeEvent index => inferInstanceAs (Decidable (index ∈ s.2.map Prod.fst))

def Registered (s : EventLoopData Handler Args × Live Handler Args) : Prop :=
  Represents s.1 s.2 ∧ (s.2.map fun row => row.2.fd).Nodup

theorem call_registered (valid : Registered s) (allowed : CallAllowed s c) : Registered (call s c) := by
  obtain ⟨data,live⟩ := s
  obtain ⟨represents,once⟩ := valid
  cases c with
  | addEvent fd handler args =>
      obtain ⟨nonneg,fresh⟩ := allowed
      rcases add_represents represents nonneg handler args with ⟨index,answer,_,after⟩ | ⟨answer,_⟩
      · have accepted : (0 : Int) ≤ index := Int.natCast_nonneg index
        simp only [call,answer,accepted,if_true,Int.toNat_natCast]
        exact ⟨after,List.nodup_cons.mpr ⟨fresh,once⟩⟩
      · simpa [call,answer,Registered] using And.intro represents once
  | removeEvent index =>
      refine ⟨remove_represents represents allowed,?_⟩
      exact once.sublist (List.filter_sublist.map _)

theorem run_registered (handler : Handler) (args : Args) (calls : List (Call Handler Args))
    (along : Machine.Along call CallAllowed (newEventLoop handler args,[]) calls) :
    Registered (Machine.run call (newEventLoop handler args,[]) calls) :=
  Machine.run_invariant Registered ⟨new_represents handler args,by simp⟩
    (fun _ _ valid allowed => call_registered valid allowed) calls along

-- A registration leaves the map by the removal of its own index only.
theorem live_persists {s : EventLoopData Handler Args × Live Handler Args} (present : row ∈ s.2)
    (later : List (Call Handler Args)) (kept : Call.removeEvent row.1 ∉ later) :
    row ∈ (Machine.run call s later).2 := by
  induction later generalizing s with
  | nil => exact present
  | cons c rest ih =>
      refine ih ?_ (fun member => kept (List.mem_cons_of_mem _ member))
      obtain ⟨data,live⟩ := s
      cases c with
      | addEvent fd handler args =>
          simp only [call]
          split
          · exact List.mem_cons_of_mem _ present
          · exact present
      | removeEvent index =>
          have different : row.1 ≠ index := by rintro rfl; exact kept (by simp)
          exact mem_withoutIndex.mpr ⟨present,different⟩

theorem registry_refines_finite_map (handler : Handler) (args : Args) (calls : List (Call Handler Args))
    (along : Machine.Along call CallAllowed (newEventLoop handler args,[]) calls) :
    let data := (Machine.run call (newEventLoop handler args,[]) calls).1
    let live := (Machine.run call (newEventLoop handler args,[]) calls).2
    evCount data = live.length ∧
    data.maxEvents ≤ 1024 ∧ (0 < data.maxEvents → data.maxEvents-1 ∈ live.map Prod.fst) ∧
    (live.map Prod.fst).Nodup ∧ (∀ row ∈ live, data.slot row.1 = row.2) ∧
    (∀ earlier fd h a later, calls = earlier ++ .addEvent fd h a :: later →
      let answer := (evAddEvent (Machine.run call (newEventLoop handler args,[]) earlier).1 fd h a true).1
      0 ≤ answer → Call.removeEvent answer.toNat ∉ later →
        (answer.toNat,⟨fd,h,a⟩) ∈ live ∧ data.slot answer.toNat = ⟨fd,h,a⟩) ∧
    (∀ ready : List Int, (∀ fd ∈ ready, 0 ≤ fd) → evLooping data (some ready) =
      ready.findSome? fun fd => (live.find? fun row => row.2.fd == fd).map Prod.snd) ∧
    (∀ fd h a, 0 ≤ fd → (evAddEvent data fd h a true).1 = -2 → live.length = 1024) := by
  obtain ⟨represents,once⟩ := run_registered handler args calls along
  refine ⟨represents.counted,represents.bounded,represents.trimmed,represents.unshared,
    fun row member => (represents.designated row member).2.1,?_,
    fun ready nonneg => looping_represents represents once ready nonneg,?_⟩
  · rintro earlier fd h a later rfl answer accepted kept
    have entered : (answer.toNat,⟨fd,h,a⟩) ∈
        (Machine.run call (newEventLoop handler args,[]) (earlier ++ .addEvent fd h a :: later)).2 := by
      rw [Machine.run_append,Machine.run_cons]
      refine live_persists ?_ later kept
      simp only [call]
      rw [if_pos accepted]
      exact List.mem_cons_self
    exact ⟨entered,(represents.designated _ entered).2.1⟩
  · intro fd h a nonneg refused
    rcases add_represents represents nonneg h a with ⟨index,answer,_,_⟩ | ⟨_,full⟩
    · rw [answer] at refused; omega
    · exact full

-- Removing index 0 leaves a hole below the mark, which the next add takes.
theorem registry_refines_finite_map_reuse :
    let calls : List (Call Nat Nat) := [.addEvent 5 1 10,.addEvent 7 2 20,.removeEvent 0,.addEvent 9 3 30]
    let data := (Machine.run call (newEventLoop 0 0,[]) calls).1
    evCount data = 2 ∧ data.slot 0 = ⟨9,3,30⟩ ∧ data.slot 1 = ⟨7,2,20⟩ := by
  have refines := registry_refines_finite_map 0 0
    [Call.addEvent 5 1 10,.addEvent 7 2 20,.removeEvent 0,.addEvent 9 3 30] (by decide)
  exact ⟨refines.1,refines.2.2.2.2.1 (0,⟨9,3,30⟩) (by decide),refines.2.2.2.2.1 (1,⟨7,2,20⟩) (by decide)⟩

end TcpProxy.Events
