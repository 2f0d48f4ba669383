import Mathlib.Data.List.Basic

namespace Separators

variable {α : Type} (sep : α → Bool)

def runs (s : List α) : List (List α) := (s.splitOnP sep).filter fun part => !part.isEmpty

-- What a scanner has still to read: inside a run the first part is the rest of
-- that run, which may be empty.
def pending (inRun : Bool) (s : List α) : List (List α) :=
  if inRun then (s.splitOnP sep).head (List.splitOnP_ne_nil sep s) :: (s.splitOnP sep).tail.filter fun part => !part.isEmpty
  else runs sep s

-- Run number k starts at index o: nothing but separators and the runs before
-- it has been left behind.
structure Starts (s : List α) (k o : Nat) : Prop where
  element : ∃ c, s[o]? = some c ∧ sep c = false
  rest : runs sep (s.drop o) = (runs sep s).drop k

variable {sep}

@[simp] theorem pending_false (s : List α) : pending sep false s = runs sep s := rfl

@[simp] theorem runs_nil : runs sep [] = [] := rfl

@[simp] theorem pending_true_nil : pending sep true [] = [[]] := rfl

theorem pending_true_ne_nil (sep : α → Bool) (s : List α) : pending sep true s ≠ [] := List.cons_ne_nil _ _

theorem runs_cons_sep (blank : sep c = true) (s : List α) : runs sep (c :: s) = runs sep s := by
  simp [runs,List.splitOnP_cons_eq_if_modifyHead,blank]

theorem pending_cons_sep (blank : sep c = true) (s : List α) : pending sep true (c :: s) = [] :: runs sep s := by
  simp [pending,runs,List.splitOnP_cons_eq_if_modifyHead,blank]

-- Inside a run or not, an element other than a separator belongs to the first.
theorem pending_cons (other : sep c = false) (inRun : Bool) (s : List α) :
    pending sep inRun (c :: s) = (pending sep true s).modifyHead (List.cons c) := by
  obtain ⟨part,rest,split⟩ := List.exists_cons_of_ne_nil (List.splitOnP_ne_nil sep s)
  cases inRun <;> simp [pending,runs,List.splitOnP_cons_eq_if_modifyHead,other,split]

theorem runs_ne_nil (member : run ∈ runs sep s) : run ≠ [] := by
  simpa using (List.mem_filter.mp member).2

theorem runs_single (other : ∀ c ∈ s, sep c = false) (nonempty : s ≠ []) : runs sep s = [s] := by
  simp [runs,List.splitOnP_eq_singleton other,nonempty]

theorem runs_append_sep (blank : sep c = true) (s rest : List α) : runs sep (s ++ c :: rest) = runs sep s ++ runs sep rest := by
  simp [runs,List.splitOnP_append_cons s rest blank]

theorem Starts.first (starts : Starts sep s k o) : (runs sep (s.drop o))[0]? = (runs sep s)[k]? := by
  rw [starts.rest,List.getElem?_drop,Nat.add_zero]

theorem Starts.lt (starts : Starts sep s k o) : k < (runs sep s).length := by
  obtain ⟨c,place,other⟩ := starts.element
  obtain ⟨inside,here⟩ := List.getElem?_eq_some_iff.mp place
  have length := congrArg List.length starts.rest
  rw [List.drop_eq_getElem_cons inside,here,← pending_false,pending_cons other,List.length_modifyHead,List.length_drop] at length
  have positive := List.length_pos_iff.mpr (pending_true_ne_nil sep (s.drop (o+1)))
  omega

theorem pending_flatten (inRun : Bool) (s : List α) : (pending sep inRun s).flatten = s.filter fun c => !sep c := by
  induction s generalizing inRun with
  | nil => cases inRun <;> rfl
  | cons c s ih =>
      cases blank : sep c with
      | true => cases inRun <;> simp [pending_cons_sep,runs_cons_sep,blank,← ih false]
      | false =>
          obtain ⟨part,rest,split⟩ := List.exists_cons_of_ne_nil (pending_true_ne_nil sep s)
          rw [pending_cons blank,split,List.modifyHead_cons]
          simp [blank,← ih true,split]

theorem runs_other (member : run ∈ runs sep s) (inside : c ∈ run) : sep c = false := by
  have kept : c ∈ s.filter fun c => !sep c := pending_flatten false s ▸ List.mem_flatten_of_mem member inside
  simpa using (List.mem_filter.mp kept).2

theorem Starts.le (one : Starts sep s k o) (other : Starts sep s k o') : o' ≤ o := by
  by_contra later
  obtain ⟨c,place,letter⟩ := one.element
  obtain ⟨inside,here⟩ := List.getElem?_eq_some_iff.mp place
  have same : (s.drop o).filter (fun c => !sep c) = (s.drop o').filter fun c => !sep c := by
    rw [← pending_flatten false,← pending_flatten false,pending_false,pending_false,one.rest,other.rest]
  have behind : s.drop o' = (s.drop (o+1)).drop (o'-(o+1)) := by
    rw [List.drop_drop]
    congr 1
    omega
  have fewer := ((List.drop_sublist (o'-(o+1)) (s.drop (o+1))).filter fun c => !sep c).length_le
  rw [← behind,← same,List.drop_eq_getElem_cons inside,here] at fewer
  rw [List.filter_cons_of_pos (by simp [letter]),List.length_cons] at fewer
  exact absurd fewer (Nat.not_succ_le_self _)

theorem Starts.unique (one : Starts sep s k o) (other : Starts sep s k o') : o = o' :=
  Nat.le_antisymm (other.le one) (one.le other)

end Separators
