import Mathlib.Data.List.Nodup
import Mathlib.Data.List.Perm.Subperm
import Mathlib.Data.List.Range
import Mathlib.Logic.Function.Basic

namespace LinkedChain

-- `Links next head nodes`: following `next` from `head` visits exactly `nodes`,
-- in this order, and then ends. A cyclic chain has no such list.
variable {Node : Type} {next other : Node → Option Node}

def Links (next : Node → Option Node) : Option Node → List Node → Prop
  | head,[] => head = none
  | head,node :: rest => head = some node ∧ Links next (next node) rest

theorem links_unique (one : Links next head nodes) (two : Links next head others) : nodes = others := by
  induction nodes generalizing head others with
  | nil =>
      cases others with
      | nil => rfl
      | cons node rest => exact absurd (one.symm.trans two.1) (by simp)
  | cons node rest ih =>
      cases others with
      | nil => exact absurd (one.1.symm.trans two) (by simp)
      | cons node' rest' =>
          obtain rfl : node = node' := Option.some.inj (one.1.symm.trans two.1)
          rw [ih one.2 two.2]

theorem links_suffix (linked : Links next head (before ++ node :: after)) :
    Links next (some node) (node :: after) := by
  induction before generalizing head with
  | nil => exact ⟨rfl,linked.2⟩
  | cons first before ih => exact ih linked.2

-- A node met twice would start two tails of different length.
theorem links_nodup (linked : Links next head nodes) : nodes.Nodup := by
  induction nodes generalizing head with
  | nil => exact List.nodup_nil
  | cons node rest ih =>
      refine List.nodup_cons.mpr ⟨?_,ih linked.2⟩
      intro again
      obtain ⟨before,after,rfl⟩ := List.append_of_mem again
      have tail : Links next (some node) (node :: after) := links_suffix linked.2
      have whole : Links next (some node) (node :: (before ++ node :: after)) := ⟨rfl,linked.2⟩
      have equal := congrArg List.length (links_unique whole tail)
      simp at equal
      omega

theorem links_congr (same : ∀ node ∈ nodes, next node = other node)
    (linked : Links next head nodes) : Links other head nodes := by
  induction nodes generalizing head with
  | nil => exact linked
  | cons node rest ih =>
      refine ⟨linked.1,?_⟩
      rw [← same node (by simp)]
      exact ih (fun n member => same n (List.mem_cons_of_mem _ member)) linked.2

theorem links_push (linked : Links next head nodes) (agree : ∀ n ∈ nodes, next n = other n)
    (first : other node = head) : Links other (some node) (node :: nodes) :=
  ⟨rfl,by rw [first]; exact links_congr agree linked⟩

theorem links_head (linked : Links next head nodes) : head = nodes.head? := by
  cases nodes with
  | nil => exact linked
  | cons node rest => exact linked.1

theorem links_none (linked : Links next none nodes) : nodes = [] :=
  links_unique linked (show Links next none [] from rfl)

theorem links_some (linked : Links next (some node) nodes) :
    ∃ rest, nodes = node :: rest ∧ Links next (next node) rest := by
  cases nodes with
  | nil => cases linked
  | cons first rest =>
      obtain rfl : node = first := Option.some.inj linked.1
      exact ⟨rest,rfl,linked.2⟩

theorem links_next (linked : Links next head (before ++ node :: after)) : next node = after.head? := by
  obtain ⟨_,same,rest⟩ := links_some (links_suffix linked)
  cases same
  exact links_head rest

-- Taking one node out: the link that led to it, the list head or the link of
-- the node before it, is given the node's own successor.
theorem links_unlink (linked : Links next head (before ++ node :: after))
    (same : ∀ n ∈ before ++ after, before.getLast? ≠ some n → next n = other n)
    (redirected : ∀ n, before.getLast? = some n → other n = next node) :
    Links other (if before = [] then next node else head) (before ++ after) := by
  induction before generalizing head with
  | nil =>
      obtain ⟨_,rest⟩ := linked
      exact links_congr (fun n member => same n (by simpa using member) (by simp)) rest
  | cons first before ih =>
      refine ⟨by simpa using linked.1,?_⟩
      cases before with
      | nil =>
          have tail := ih linked.2 (fun n member _ => ?_) (by simp)
          · simpa [redirected first rfl] using tail
          · refine same n (List.mem_cons_of_mem _ member) ?_
            rintro equal
            obtain rfl : first = n := by simpa using equal
            have once := links_nodup linked
            simp only [List.cons_append,List.nil_append,List.nodup_cons,List.mem_cons] at once
            exact once.1 (.inr (by simpa using member))
      | cons second before =>
          have tail := ih linked.2
            (fun n member different => same n (List.mem_cons_of_mem _ member) (by simpa using different))
            (fun n last => redirected n (by simpa using last))
          have here : next first = other first := by
            refine same first (by simp) ?_
            intro last
            have inside : first ∈ second :: before := List.mem_of_getLast? (by simpa using last)
            have once := links_nodup linked
            rw [List.cons_append,List.nodup_cons] at once
            exact once.1 (List.mem_append_left _ inside)
          rw [← here]
          simpa using tail

-- The links of the other direction: the first node points to `before`, every
-- later one to the node in front of it.
def Mirrors (prev : Node → Option Node) : Option Node → List Node → Prop
  | _,[] => True
  | before,node :: rest => prev node = before ∧ Mirrors prev (some node) rest

variable {prev back : Node → Option Node}

theorem mirrors_congr (same : ∀ node ∈ nodes, prev node = back node)
    (mirrored : Mirrors prev start nodes) : Mirrors back start nodes := by
  induction nodes generalizing start with
  | nil => trivial
  | cons node rest ih =>
      refine ⟨(same node (by simp)).symm.trans mirrored.1,?_⟩
      exact ih (fun n member => same n (List.mem_cons_of_mem _ member)) mirrored.2

theorem mirrors_push (once : nodes.Nodup) (mirrored : Mirrors prev none nodes)
    (agree : ∀ n ∈ nodes, nodes.head? ≠ some n → prev n = back n) (first : back node = none)
    (second : ∀ n, nodes.head? = some n → back n = some node) : Mirrors back none (node :: nodes) := by
  refine ⟨first,?_⟩
  cases nodes with
  | nil => trivial
  | cons head rest =>
      refine ⟨second head rfl,mirrors_congr (fun n member => ?_) mirrored.2⟩
      refine agree n (List.mem_cons_of_mem _ member) ?_
      intro equal
      obtain rfl : head = n := by simpa using equal
      exact (List.nodup_cons.mp once).1 member

theorem mirrors_prev (mirrored : Mirrors prev start (before ++ node :: after)) :
    prev node = before.getLast?.or start := by
  induction before generalizing start with
  | nil => simpa using mirrored.1
  | cons first before ih =>
      rw [ih mirrored.2]
      cases before with
      | nil => rfl
      | cons second before =>
          rw [List.getLast?_cons_cons,List.getLast?_eq_some_getLast (List.cons_ne_nil second before)]
          rfl

theorem mirrors_unlink (once : (before ++ node :: after).Nodup)
    (mirrored : Mirrors prev start (before ++ node :: after))
    (same : ∀ n ∈ before ++ after, after.head? ≠ some n → prev n = back n)
    (redirected : ∀ n, after.head? = some n → back n = prev node) : Mirrors back start (before ++ after) := by
  induction before generalizing start with
  | nil =>
      cases after with
      | nil => trivial
      | cons next after =>
          refine ⟨(redirected next rfl).trans mirrored.1,mirrors_congr (fun n member => ?_) mirrored.2.2⟩
          refine same n (by simp [member]) ?_
          intro equal
          obtain rfl : next = n := by simpa using equal
          have inner := (List.nodup_cons.mp once).2
          exact (List.nodup_cons.mp inner).1 member
  | cons first before ih =>
      have apart := List.nodup_cons.mp once
      refine ⟨?_,ih apart.2 mirrored.2
        (fun n member => same n (List.mem_cons_of_mem _ member))⟩
      refine (same first (by simp) ?_).symm.trans mirrored.1
      intro equal
      have member : first ∈ after := List.mem_of_head? equal
      exact apart.1 (by simp [member])

theorem length_le_of_nodup (nodes : List Nat) (once : nodes.Nodup) (bounded : ∀ n ∈ nodes, n < bound) :
    nodes.length ≤ bound := by
  have inside : nodes ⊆ List.range bound := fun n member => List.mem_range.mpr (bounded n member)
  simpa using (List.subperm_of_subset once inside).length_le

section Buckets
variable {Index : Type} [DecidableEq Index] {chains : Index → List Node} {i j : Index}

theorem mem_update : node ∈ Function.update chains i nodes j ↔ if j = i then node ∈ nodes else node ∈ chains j := by
  by_cases equal : j = i
  · rw [equal,Function.update_self,if_pos rfl]
  · rw [Function.update_of_ne equal,if_neg equal]

theorem mem_update_cons : node ∈ Function.update chains i (first :: chains i) j ↔ j = i ∧ node = first ∨ node ∈ chains j := by
  rw [mem_update]
  by_cases equal : j = i
  · subst j
    simp
  · simp [equal]

end Buckets

end LinkedChain
