import Mathlib.Algebra.Order.BigOperators.Group.Finset
import TcpProxy.Lib.SlidingWindow
import TcpProxy.AutoBlacklist.Table

namespace TcpProxy.AutoBlacklist
open SlidingWindow

variable {entry : IpAccessEntry}

structure Balanced (entry : IpAccessEntry) : Prop where
  total : entry.counter = ∑ j ∈ Finset.range 12, (entry.accessCount j).counter
  nonneg : ∀ j < 12, 0 ≤ (entry.accessCount j).counter

def relabel (slot : AccessEntry) (s : Int) : AccessEntry :=
  if slot.slotIndex = s then slot else ⟨if 0 < slot.counter then 0 else slot.counter,s⟩

@[simp] theorem relabel_slotIndex (slot : AccessEntry) (s : Int) : (relabel slot s).slotIndex = s := by
  unfold relabel
  split
  · assumption
  · rfl

theorem relabel_nonneg (nonneg : 0 ≤ slot.counter) (s : Int) : 0 ≤ (relabel slot s).counter := by
  unfold relabel
  split
  · exact nonneg
  · dsimp only; split <;> omega

theorem relabel_positive (positive : 0 < (relabel slot s).counter) : slot.slotIndex = s ∧ relabel slot s = slot := by
  by_cases equal : slot.slotIndex = s
  · exact ⟨equal,by simp [relabel,equal]⟩
  · simp only [relabel,equal,if_false] at positive
    split at positive <;> omega

theorem clearSlot_accessCount (entry : IpAccessEntry) (i : Nat) (s : Int) :
    (clearSlot entry i s).accessCount = Function.update entry.accessCount i (relabel (entry.accessCount i) s) := by
  unfold clearSlot relabel
  by_cases equal : (entry.accessCount i).slotIndex = s
  · simp [equal]
  · by_cases positive : 0 < (entry.accessCount i).counter <;> simp [equal,positive]

theorem clearSlot_counter (entry : IpAccessEntry) (i : Nat) (s : Int) :
    (clearSlot entry i s).counter =
      entry.counter - (entry.accessCount i).counter + (relabel (entry.accessCount i) s).counter := by
  unfold clearSlot relabel
  by_cases equal : (entry.accessCount i).slotIndex = s
  · simp [equal]
  · by_cases positive : 0 < (entry.accessCount i).counter <;> simp [equal,positive]

theorem clearSlot_frame (entry : IpAccessEntry) (i : Nat) (s : Int) :
    (clearSlot entry i s).ipaddr = entry.ipaddr ∧ (clearSlot entry i s).next = entry.next := by
  unfold clearSlot
  split
  · dsimp only; split <;> exact ⟨rfl,rfl⟩
  · exact ⟨rfl,rfl⟩

theorem sum_update_counter (slots : Nat → AccessEntry) (inside : i < 12) (slot : AccessEntry) :
    ∑ j ∈ Finset.range 12, (Function.update slots i slot j).counter =
      ∑ j ∈ Finset.range 12, (slots j).counter - (slots i).counter + slot.counter := by
  have member : i ∈ Finset.range 12 := Finset.mem_range.mpr inside
  rw [← Finset.add_sum_erase _ _ member,← Finset.add_sum_erase (Finset.range 12) (fun j => (slots j).counter) member]
  have others : ∑ j ∈ (Finset.range 12).erase i, (Function.update slots i slot j).counter =
      ∑ j ∈ (Finset.range 12).erase i, (slots j).counter := by
    refine Finset.sum_congr rfl fun j present => ?_
    rw [Function.update_of_ne (Finset.ne_of_mem_erase present)]
  rw [others,Function.update_self]
  omega

theorem clearSlot_balanced (balanced : Balanced entry) (inside : i < 12) (s : Int) :
    Balanced (clearSlot entry i s) := by
  refine ⟨?_,?_⟩
  · rw [clearSlot_counter,clearSlot_accessCount,sum_update_counter _ inside,balanced.total]
  · intro j bound
    rw [clearSlot_accessCount]
    by_cases equal : j = i
    · subst j
      simpa using relabel_nonneg (balanced.nonneg i inside) s
    · simpa [Function.update_of_ne equal] using balanced.nonneg j bound

theorem clearLoop_balanced (balanced : Balanced entry) (inside : i < 12) (s : Int) (left : Nat) :
    Balanced (clearLoop entry i s left) := by
  induction left generalizing entry i s with
  | zero => exact balanced
  | succ left ih => exact ih (clearSlot_balanced balanced inside s) (Nat.mod_lt _ (by decide)) _

theorem clearLoop_frame (entry : IpAccessEntry) (i : Nat) (s : Int) (left : Nat) :
    (clearLoop entry i s left).ipaddr = entry.ipaddr ∧ (clearLoop entry i s left).next = entry.next := by
  induction left generalizing entry i s with
  | zero => exact ⟨rfl,rfl⟩
  | succ left ih =>
      have rest := ih (clearSlot entry i s) ((i+reservedEntry-1) % reservedEntry) (s-1)
      have one := clearSlot_frame entry i s
      exact ⟨rest.1.trans one.1,rest.2.trans one.2⟩

-- The loop walks the ring backwards from `i`, so slot `j` is met after as many
-- rounds as it lies behind, and at most once in twelve rounds.
theorem clearLoop_accessCount (entry : IpAccessEntry) (i : Nat) (s : Int) (left : Nat) (inside : i < 12)
    (rounds : left ≤ 12) (j : Nat) (bound : j < 12) :
    (clearLoop entry i s left).accessCount j =
      if (i+12-j) % 12 < left then relabel (entry.accessCount j) (s-((i+12-j) % 12 : Nat))
      else entry.accessCount j := by
  induction left generalizing entry i s with
  | zero => rfl
  | succ left ih =>
      have previous : (i+reservedEntry-1) % reservedEntry < 12 := Nat.mod_lt _ (by decide)
      have rest := ih (clearSlot entry i s) _ (s-1) previous (by omega)
      unfold clearLoop
      rw [rest,clearSlot_accessCount]
      by_cases equal : j = i
      · subst j
        have passed : ¬ ((i+reservedEntry-1) % reservedEntry+12-i) % 12 < left := by
          simp only [reservedEntry]; omega
        simp [passed]
      · have behind : ((i+reservedEntry-1) % reservedEntry+12-j) % 12 + 1 = (i+12-j) % 12 := by
          simp only [reservedEntry]; omega
        rw [Function.update_of_ne equal,← behind]
        simp only [Nat.add_lt_add_iff_right,Nat.cast_add,Nat.cast_one]
        congr 2
        omega

theorem clearOutdatedData_accessCount (entry : IpAccessEntry) (slot : Int) (j : Nat) (bound : j < 12) :
    (clearOutdatedData entry (slot % 12).toNat slot).accessCount j =
      relabel (entry.accessCount j) (latest 12 slot j) := by
  have spec := clearLoop_accessCount entry (slot % 12).toNat slot 12 (by omega) (Nat.le_refl _) j bound
  rw [if_pos (Nat.mod_lt _ (by decide))] at spec
  have same : slot-(((slot % 12).toNat+12-j) % 12 : Nat) = latest 12 slot j := by
    unfold latest; omega
  rw [← same]
  exact spec

theorem clearOutdatedData_balanced (balanced : Balanced entry) (inside : i < 12) (s : Int) :
    Balanced (clearOutdatedData entry i s) := clearLoop_balanced balanced inside s _

@[simp] theorem clearOutdatedData_ipaddr (entry : IpAccessEntry) (i : Nat) (s : Int) :
    (clearOutdatedData entry i s).ipaddr = entry.ipaddr := (clearLoop_frame entry i s _).1
@[simp] theorem clearOutdatedData_next (entry : IpAccessEntry) (i : Nat) (s : Int) :
    (clearOutdatedData entry i s).next = entry.next := (clearLoop_frame entry i s _).2

@[simp] theorem refresh_ipaddr (entry : IpAccessEntry) (i : Nat) (s : Int) :
    (refresh entry i s).ipaddr = entry.ipaddr := by unfold refresh; split <;> simp
@[simp] theorem refresh_next (entry : IpAccessEntry) (i : Nat) (s : Int) :
    (refresh entry i s).next = entry.next := by unfold refresh; split <;> simp
@[simp] theorem countAccess_ipaddr (entry : IpAccessEntry) (i : Nat) :
    (countAccess entry i).ipaddr = entry.ipaddr := rfl
@[simp] theorem countAccess_next (entry : IpAccessEntry) (i : Nat) :
    (countAccess entry i).next = entry.next := rfl

theorem refresh_balanced (balanced : Balanced entry) (inside : i < 12) (s : Int) : Balanced (refresh entry i s) := by
  unfold refresh
  split
  · exact clearOutdatedData_balanced balanced inside s
  · exact balanced

theorem countAccess_balanced (balanced : Balanced entry) (inside : i < 12) : Balanced (countAccess entry i) := by
  refine ⟨?_,?_⟩
  · simp only [countAccess]
    rw [sum_update_counter _ inside,balanced.total]
    dsimp only
    omega
  · intro j bound
    have old := balanced.nonneg j bound
    by_cases equal : j = i
    · subst j
      simp only [countAccess,Function.update_self]
      omega
    · simpa [countAccess,Function.update_of_ne equal] using old

-- `accesses s` is how often the address was seen in slot `s`. The entry was
-- last brought up to date at slot `last`: every count it holds belongs to the
-- window ending there, and the window lacks none.
structure Tracks (entry : IpAccessEntry) (accesses : Int → Nat) (last : Int) : Prop where
  balanced : Balanced entry
  dated : ∀ j < 12, (entry.accessCount j).slotIndex ≤ last
  held : ∀ j < 12, 0 < (entry.accessCount j).counter →
    last-12 < (entry.accessCount j).slotIndex ∧ (entry.accessCount j).slotIndex % 12 = j ∧
      (entry.accessCount j).counter = accesses (entry.accessCount j).slotIndex
  complete : ∀ s, last-12 < s → s ≤ last → 0 < accesses s →
    entry.accessCount (s % 12).toNat = ⟨accesses s,s⟩
  future : ∀ s, last < s → accesses s = 0

variable {accesses : Int → Nat} {last : Int}

theorem tracks_new (ip : UInt32) (now : Timeval) (next : Option Nat) (nonneg : 0 ≤ last)
    (quiet : ∀ s, last-12 < s → accesses s = 0) :
    Tracks ⟨ip,fun _ => ⟨0,0⟩,0,0,now,next⟩ accesses last := by
  refine ⟨⟨by simp,by simp⟩,fun _ _ => nonneg,by simp,?_,fun s after => quiet s (by omega)⟩
  intro s low _ seen
  have := quiet s low
  omega

theorem Tracks.clear (valid : Tracks entry accesses last) (ordered : last ≤ slot) :
    Tracks (clearOutdatedData entry (slot % 12).toNat slot) accesses slot := by
  have spec := clearOutdatedData_accessCount entry slot
  refine ⟨clearOutdatedData_balanced valid.balanced (by omega) slot,?_,?_,?_,
    fun s after => valid.future s (by omega)⟩
  · intro j bound
    rw [spec j bound,relabel_slotIndex]
    exact latest_le (by decide) slot j
  · intro j bound positive
    rw [spec j bound] at positive ⊢
    obtain ⟨labelled,kept⟩ := relabel_positive positive
    rw [kept] at positive ⊢
    obtain ⟨_,residue,count⟩ := valid.held j bound positive
    exact ⟨labelled ▸ lt_latest (by decide) slot j,residue,count⟩
  · intro s low high seen
    have past : s ≤ last := by
      by_contra after
      have := valid.future s (by omega)
      omega
    have old := valid.complete s (by omega) past seen
    have index : (s % 12).toNat < 12 := by omega
    have residue : latest 12 slot ((s % 12).toNat : Nat) = s := latest_eq low high _ (by push_cast; omega)
    rw [spec _ index,residue,old]
    simp [relabel]

theorem Tracks.refresh (valid : Tracks entry accesses last) (ordered : last ≤ slot) :
    Tracks (refresh entry (slot % 12).toNat slot) accesses slot ∧
      ((AutoBlacklist.refresh entry (slot % 12).toNat slot).accessCount (slot % 12).toNat).slotIndex = slot := by
  have index : (slot % 12).toNat < 12 := by omega
  unfold AutoBlacklist.refresh
  by_cases equal : (entry.accessCount (slot % 12).toNat).slotIndex = slot
  · -- The label can be current only if the entry was brought up to date in this very slot.
    have dated := valid.dated _ index
    obtain rfl : last = slot := by omega
    simpa [equal] using valid
  · rw [if_pos equal]
    refine ⟨valid.clear ordered,?_⟩
    rw [clearOutdatedData_accessCount entry slot _ index,relabel_slotIndex]
    exact latest_eq (by omega) (Int.le_refl _) _ (by omega)

-- A slot that is behind the entry's own: nothing was counted after it, so that
-- relabelling the ring to it loses nothing of the window.
theorem Tracks.clear_behind (valid : Tracks entry accesses last) (low : last-12 < slot) (high : slot ≤ last)
    (quiet : ∀ s, slot < s → accesses s = 0) :
    Tracks (clearOutdatedData entry (slot % 12).toNat slot) accesses last := by
  have spec := clearOutdatedData_accessCount entry slot
  refine ⟨clearOutdatedData_balanced valid.balanced (by omega) slot,?_,?_,?_,valid.future⟩
  · intro j bound
    rw [spec j bound,relabel_slotIndex]
    exact (latest_le (by decide) slot j).trans high
  · intro j bound positive
    rw [spec j bound] at positive ⊢
    obtain ⟨_,kept⟩ := relabel_positive positive
    rw [kept] at positive ⊢
    exact valid.held j bound positive
  · intro s after before seen
    have past : s ≤ slot := by
      by_contra later
      have := quiet s (by omega)
      omega
    have index : (s % 12).toNat < 12 := by omega
    have residue : latest 12 slot ((s % 12).toNat : Nat) = s :=
      latest_eq (by push_cast; omega) past _ (by push_cast; omega)
    rw [spec _ index,residue,valid.complete s after before seen]
    simp [relabel]

theorem Tracks.refresh_any (valid : Tracks entry accesses last) (low : last-12 < slot)
    (quiet : ∀ s, slot < s → accesses s = 0) :
    Tracks (AutoBlacklist.refresh entry (slot % 12).toNat slot) accesses (max last slot) ∧
      ((AutoBlacklist.refresh entry (slot % 12).toNat slot).accessCount (slot % 12).toNat).slotIndex = slot := by
  by_cases ordered : last ≤ slot
  · rw [max_eq_right ordered]
    exact valid.refresh ordered
  · have behind : slot ≤ last := by omega
    rw [max_eq_left behind]
    unfold AutoBlacklist.refresh
    by_cases equal : (entry.accessCount (slot % 12).toNat).slotIndex = slot
    · simpa [equal] using valid
    · rw [if_pos equal]
      refine ⟨valid.clear_behind low behind quiet,?_⟩
      rw [clearOutdatedData_accessCount entry slot _ (by omega),relabel_slotIndex]
      exact latest_eq (by push_cast; omega) (Int.le_refl _) _ (by push_cast; omega)

theorem Tracks.slot_counter (valid : Tracks entry accesses last) (j : Nat) (bound : j < 12) :
    (entry.accessCount j).counter = accesses (latest 12 last j) := by
  have nonneg := valid.balanced.nonneg j bound
  have low := lt_latest (show 0 < 12 by decide) last j
  have high := latest_le (show 0 < 12 by decide) last j
  have residue : latest 12 last j % 12 = j := by
    have := latest_emod 12 last j
    push_cast at this
    omega
  by_cases positive : 0 < (entry.accessCount j).counter
  · obtain ⟨after,labelled,count⟩ := valid.held j bound positive
    have dated := valid.dated j bound
    have same : latest 12 last j = (entry.accessCount j).slotIndex :=
      latest_eq after dated _ (by push_cast; omega)
    rw [same,count]
  · by_contra different
    have seen : 0 < accesses (latest 12 last j) := by omega
    have slot := valid.complete _ low high seen
    rw [residue,Int.toNat_natCast] at slot
    rw [slot] at positive
    simp only at positive
    omega

theorem Tracks.counter (valid : Tracks entry accesses last) :
    entry.counter = ∑ s ∈ Finset.Ioc (last-12) last, (accesses s : Int) := by
  have window := sum_latest (show 0 < 12 by decide) last fun s => (accesses s : Int)
  rw [Nat.cast_ofNat] at window
  rw [valid.balanced.total,← window]
  exact Finset.sum_congr rfl fun j member => valid.slot_counter j (Finset.mem_range.mp member)

theorem Tracks.quiet (valid : Tracks entry accesses last) (empty : entry.counter = 0) (s : Int) (low : last-12 < s) :
    accesses s = 0 := by
  by_cases high : s ≤ last
  · rw [valid.counter] at empty
    have each := (Finset.sum_eq_zero_iff_of_nonneg fun s _ => Int.natCast_nonneg (accesses s)).mp empty
      s (Finset.mem_Ioc.mpr ⟨low,high⟩)
    omega
  · exact valid.future s (by omega)

theorem Tracks.countAccess (valid : Tracks entry accesses last) (low : last-12 < slot) (high : slot ≤ last)
    (current : (entry.accessCount (slot % 12).toNat).slotIndex = slot) :
    Tracks (countAccess entry (slot % 12).toNat) (Function.update accesses slot (accesses slot + 1)) last := by
  have index : (slot % 12).toNat < 12 := by omega
  have here : (entry.accessCount (slot % 12).toNat).counter = accesses slot := by
    rw [valid.slot_counter _ index,latest_eq (by push_cast; omega) high _ (by push_cast; omega)]
  refine ⟨countAccess_balanced valid.balanced index,?_,?_,?_,?_⟩
  · intro j bound
    by_cases equal : j = (slot % 12).toNat
    · simpa [AutoBlacklist.countAccess,equal,current] using high
    · simpa [AutoBlacklist.countAccess,Function.update_of_ne equal] using valid.dated j bound
  · intro j bound positive
    by_cases equal : j = (slot % 12).toNat
    · subst j
      simp only [AutoBlacklist.countAccess,Function.update_self,current] at positive ⊢
      exact ⟨low,by omega,by rw [here]; simp⟩
    · simp only [AutoBlacklist.countAccess,Function.update_of_ne equal] at positive ⊢
      obtain ⟨after,residue,count⟩ := valid.held j bound positive
      refine ⟨after,residue,?_⟩
      rw [Function.update_of_ne (by omega),count]
  · intro s after before seen
    by_cases equal : s = slot
    · subst s
      simp [AutoBlacklist.countAccess,current,here]
    · rw [Function.update_of_ne equal] at seen ⊢
      have different : (s % 12).toNat ≠ (slot % 12).toNat := by omega
      simpa [AutoBlacklist.countAccess,Function.update_of_ne different] using valid.complete s after before seen
  · intro s after
    rw [Function.update_of_ne (by omega)]
    exact valid.future s after

end TcpProxy.AutoBlacklist
