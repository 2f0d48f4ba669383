import Mathlib.Data.List.Basic

namespace SiblingTree

-- A tree whose nodes point to the first of their children and to their next
-- sibling, as one such pointer: all that can be reached from there.
inductive Pointer (Key Value : Type) where
  | null
  | node (key : Key) (value : Value) (child next : Pointer Key Value)
deriving DecidableEq, Repr

variable {Key Value : Type}

namespace Pointer

def child : Pointer Key Value → Pointer Key Value
  | null => null
  | node _ _ child _ => child

def value : Pointer Key Value → Option Value
  | null => none
  | node _ value _ _ => some value

def keys : Pointer Key Value → List Key
  | null => []
  | node key _ _ next => key :: keys next

def Distinct : Pointer Key Value → Prop
  | null => True
  | node key _ child next => key ∉ keys next ∧ Distinct child ∧ Distinct next

@[simp] theorem value_none {t : Pointer Key Value} : t.value = none ↔ t = null := by cases t <;> simp [value]

end Pointer

open Pointer

variable [DecidableEq Key]

def find (key : Key) : Pointer Key Value → Pointer Key Value
  | null => null
  | node key' value child next => if key' = key then node key' value child next else find key next

-- The node at the end of a path, a node for each key; the empty path ends nowhere.
def lookup : Pointer Key Value → List Key → Pointer Key Value
  | _,[] => null
  | t,[key] => find key t
  | t,key :: next :: rest => lookup (find key t).child (next :: rest)

-- The node at the end of the longest path that some keys start with, and the
-- path's length.
def longest : Pointer Key Value → List Key → Option (Pointer Key Value × Nat)
  | _,[] => none
  | t,key :: rest =>
    match find key t with
    | null => none
    | node key' value child next =>
      match longest child rest with
      | none => some (node key' value child next,1)
      | some (last,length) => some (last,length+1)

def IsLongest (t : Pointer Key Value) (keys : List Key) : Option (Pointer Key Value × Nat) → Prop
  | none => ∀ length, lookup t (keys.take length) = null
  | some (last,length) => 1 ≤ length ∧ length ≤ keys.length ∧ lookup t (keys.take length) = last ∧ last ≠ null ∧
      ∀ longer, length < longer → longer ≤ keys.length → lookup t (keys.take longer) = null

def setChild (key : Key) (child : Pointer Key Value) : Pointer Key Value → Pointer Key Value
  | null => null
  | node key' value child' next =>
    if key' = key then node key' value child next else node key' value child' (setChild key child next)

-- The children of the sibling with a key, which is made if there is none.
def attach (inner : Value) (key : Key) (child t : Pointer Key Value) : Pointer Key Value :=
  match find key t with
  | null => node key inner child t
  | node .. => setChild key child t

def insert (inner last : Value) : List Key → Pointer Key Value → Bool × Pointer Key Value
  | [],t => (false,t)
  | [key],t =>
    match find key t with
    | null => (true,node key last null t)
    | node .. => (false,t)
  | key :: next :: rest,t =>
    let made := insert inner last (next :: rest) (find key t).child
    (made.1,attach inner key made.2 t)

variable {t : Pointer Key Value} {key : Key} {keys path : List Key}

theorem find_cases (key : Key) (t : Pointer Key Value) :
    find key t = null ∨ ∃ value child next, find key t = node key value child next := by
  induction t with
  | null => exact .inl rfl
  | node key' value child next _ ih =>
      by_cases same : key' = key
      · subst same
        exact .inr ⟨value,child,next,if_pos rfl⟩
      · simpa only [find,if_neg same] using ih

theorem find_null : find key t = null ↔ key ∉ t.keys := by
  induction t with
  | null => simp [find,Pointer.keys]
  | node key' value child next _ ih =>
      by_cases same : key' = key
      · simp [find,Pointer.keys,same]
      · simp [find,Pointer.keys,same,ih,Ne.symm same]

@[simp] theorem lookup_null (path : List Key) : lookup (null : Pointer Key Value) path = null := by
  induction path with
  | nil => rfl
  | cons key rest ih =>
      cases rest with
      | nil => rfl
      | cons next rest => exact ih

theorem lookup_cons (key : Key) (nonempty : rest ≠ []) : lookup t (key :: rest) = lookup (find key t).child rest := by
  cases rest with
  | nil => exact absurd rfl nonempty
  | cons next rest => rfl

theorem lookup_concat (nonempty : path ≠ []) (key : Key) (t : Pointer Key Value) :
    lookup t (path ++ [key]) = find key (lookup t path).child := by
  induction path generalizing t with
  | nil => exact absurd rfl nonempty
  | cons first rest ih =>
      cases rest with
      | nil => rfl
      | cons second rest =>
          rw [List.cons_append,lookup_cons first (by simp),lookup_cons first (List.cons_ne_nil second rest)]
          exact ih (List.cons_ne_nil second rest) _

theorem mem_child_keys (t : Pointer Key Value) (path : List Key) (key : Key) :
    key ∈ (lookup t path).child.keys ↔ path ≠ [] ∧ lookup t (path ++ [key]) ≠ null := by
  cases path with
  | nil => simp [lookup,Pointer.child,Pointer.keys]
  | cons first rest =>
      rw [lookup_concat (List.cons_ne_nil first rest),ne_eq (find _ _),find_null,not_not]
      exact (and_iff_right (List.cons_ne_nil first rest)).symm

theorem longest_spec (t : Pointer Key Value) (keys : List Key) : IsLongest t keys (longest t keys) := by
  induction keys generalizing t with
  | nil => exact fun length => by rw [List.take_nil]; rfl
  | cons key rest ih =>
      rcases find_cases key t with absent | ⟨value,child,next,found⟩
      · simp only [longest,absent,IsLongest]
        intro length
        cases length with
        | zero => rfl
        | succ length =>
            rw [List.take_succ_cons]
            cases rest.take length with
            | nil => exact absent
            | cons second rest =>
                rw [lookup,absent]
                exact lookup_null _
      · have below : ∀ length, rest.take length ≠ [] →
            lookup t (key :: rest.take length) = lookup child (rest.take length) := by
          intro length nonempty
          rw [lookup_cons key nonempty,found,Pointer.child]
        have deeper := ih child
        simp only [longest,found]
        cases further : longest child rest with
        | none =>
            rw [further] at deeper
            refine ⟨Nat.le_refl 1,Nat.succ_le_succ (Nat.zero_le _),found,by simp,fun longer more inside => ?_⟩
            obtain ⟨length,rfl⟩ : ∃ length, longer = length+1 := ⟨longer-1,by omega⟩
            have nonempty : rest.take length ≠ [] := by
              rw [← List.length_pos_iff,List.length_take]
              simp only [List.length_cons] at inside
              omega
            exact (below length nonempty).trans (deeper length)
        | some pair =>
            obtain ⟨last,length⟩ := pair
            rw [further] at deeper
            obtain ⟨positive,inside,here,there,maximal⟩ := deeper
            have nonempty : ∀ longer, 1 ≤ longer → longer ≤ rest.length → rest.take longer ≠ [] := by
              intro longer present inside
              rw [← List.length_pos_iff,List.length_take]
              omega
            have end_at := (below length (nonempty length positive inside)).trans here
            refine ⟨by omega,Nat.succ_le_succ inside,end_at,there,?_⟩
            intro longer more within
            obtain ⟨longer,rfl⟩ : ∃ length, longer = length+1 := ⟨longer-1,by omega⟩
            simp only [List.length_cons] at within
            exact (below longer (nonempty longer (by omega) (by omega))).trans (maximal longer (by omega) (by omega))

theorem setChild_keys (key : Key) (child t : Pointer Key Value) : (setChild key child t).keys = t.keys := by
  induction t with
  | null => rfl
  | node key' value child' next _ ih =>
      by_cases same : key' = key <;> simp [setChild,Pointer.keys,same,ih]

theorem setChild_value (key other : Key) (child t : Pointer Key Value) :
    (find other (setChild key child t)).value = (find other t).value := by
  induction t with
  | null => rfl
  | node key' value child' next _ ih =>
      by_cases same : key' = key <;> by_cases here : key' = other <;> simp_all [setChild,find,Pointer.value]

theorem setChild_child (present : find key t ≠ null) (other : Key) (child : Pointer Key Value) :
    (find other (setChild key child t)).child = if other = key then child else (find other t).child := by
  induction t with
  | null => exact absurd rfl present
  | node key' value child' next _ ih =>
      by_cases same : key' = key
      · subst same
        by_cases here : key' = other
        · subst here
          simp [setChild,find,Pointer.child]
        · simp [setChild,find,here,Ne.symm here]
      · rw [find,if_neg same] at present
        rw [setChild,if_neg same]
        by_cases here : key' = other
        · subst here
          simp [find,Pointer.child,same]
        · rw [find,find,if_neg here,if_neg here]
          exact ih present

theorem attach_value (inner : Value) (key other : Key) (child t : Pointer Key Value) :
    (find other (attach inner key child t)).value =
      if other = key then some ((find key t).value.getD inner) else (find other t).value := by
  rcases find_cases key t with absent | ⟨value,old,next,found⟩
  · rw [attach,absent,find]
    by_cases same : other = key
    · simp [same,Pointer.value]
    · simp [same,Ne.symm same]
  · rw [attach,found]
    refine (setChild_value key other child t).trans ?_
    split
    · next same => rw [same,found]; rfl
    · rfl

theorem attach_child (inner : Value) (key other : Key) (child t : Pointer Key Value) :
    (find other (attach inner key child t)).child = if other = key then child else (find other t).child := by
  rcases find_cases key t with absent | ⟨value,old,next,found⟩
  · rw [attach,absent,find]
    by_cases same : other = key
    · simp [same,Pointer.child]
    · simp [same,Ne.symm same]
  · rw [attach,found]
    exact setChild_child (by simp [found]) other child

theorem insert_fst (inner last : Value) (keys : List Key) (t : Pointer Key Value) :
    (insert inner last keys t).1 = true ↔ keys ≠ [] ∧ lookup t keys = null := by
  induction keys generalizing t with
  | nil => simp [insert]
  | cons key rest ih =>
      cases rest with
      | nil =>
          rcases find_cases key t with absent | ⟨value,old,next,found⟩
          · simp [insert,lookup,absent]
          · simp [insert,lookup,found]
      | cons next rest =>
          rw [insert,lookup]
          exact (ih _).trans (by simp)

-- What is at a path stays, and what there is not yet of the new path is made.
theorem insert_value (inner last : Value) (nonempty : keys ≠ []) (t : Pointer Key Value) (path : List Key) :
    (lookup (insert inner last keys t).2 path).value =
      (lookup t path).value.or (if path ≠ [] ∧ path <+: keys then some (if path = keys then last else inner) else none) := by
  induction keys generalizing t path with
  | nil => exact absurd rfl nonempty
  | cons key rest ih =>
      cases path with
      | nil => simp [lookup,Pointer.value]
      | cons key' path =>
          cases rest with
          | nil =>
              rcases find_cases key t with absent | ⟨value,old,next,found⟩
              · by_cases same : key = key'
                · subst same
                  cases path <;> simp [insert,lookup,absent,find,Pointer.value,Pointer.child]
                · cases path <;> simp [insert,lookup,absent,find,same,Ne.symm same]
              · by_cases same : key' = key
                · subst same
                  cases path <;> simp [insert,lookup,found,Pointer.value]
                · cases path <;> simp [insert,lookup,found,same]
          | cons next rest =>
              rw [insert]
              cases path with
              | nil =>
                  rw [lookup,lookup,attach_value]
                  by_cases same : key' = key
                  · subst same
                    cases (find key' t).value <;> simp
                  · simp [same]
              | cons second path =>
                  rw [lookup,lookup,attach_child]
                  by_cases same : key' = key
                  · subst same
                    simpa using ih (List.cons_ne_nil next rest) (find key' t).child (second :: path)
                  · simp [same]

theorem find_distinct (distinct : t.Distinct) (key : Key) : (find key t).child.Distinct := by
  induction t with
  | null => trivial
  | node key' value child next _ ih =>
      by_cases same : key' = key
      · rw [find,if_pos same]
        exact distinct.2.1
      · rw [find,if_neg same]
        exact ih distinct.2.2

theorem lookup_distinct (distinct : t.Distinct) (path : List Key) : (lookup t path).child.Distinct := by
  induction path generalizing t with
  | nil => trivial
  | cons key rest ih =>
      cases rest with
      | nil => exact find_distinct distinct key
      | cons next rest => exact ih (find_distinct distinct key)

omit [DecidableEq Key] in
theorem keys_nodup (distinct : t.Distinct) : t.keys.Nodup := by
  induction t with
  | null => exact .nil
  | node key value child next _ ih => exact List.nodup_cons.mpr ⟨distinct.1,ih distinct.2.2⟩

theorem setChild_distinct (distinct : t.Distinct) (key : Key) {child : Pointer Key Value} (new : child.Distinct) :
    (setChild key child t).Distinct := by
  induction t with
  | null => trivial
  | node key' value child' next _ ih =>
      by_cases same : key' = key
      · rw [setChild,if_pos same]
        exact ⟨distinct.1,new,distinct.2.2⟩
      · rw [setChild,if_neg same]
        exact ⟨setChild_keys key child next ▸ distinct.1,distinct.2.1,ih distinct.2.2⟩

theorem insert_distinct (inner last : Value) (keys : List Key) (distinct : t.Distinct) :
    (insert inner last keys t).2.Distinct := by
  induction keys generalizing t with
  | nil => exact distinct
  | cons key rest ih =>
      cases rest with
      | nil =>
          rcases find_cases key t with absent | ⟨value,old,next,found⟩
          · simp only [insert,absent]
            exact ⟨find_null.mp absent,trivial,distinct⟩
          · simpa only [insert,found] using distinct
      | cons next rest =>
          have made := ih (find_distinct distinct key)
          rw [insert]
          rcases find_cases key t with absent | ⟨value,old,next',found⟩
          · simp only [attach,absent] at made ⊢
            exact ⟨find_null.mp absent,made,distinct⟩
          · simp only [attach,found] at made ⊢
            exact setChild_distinct distinct key made

end SiblingTree
