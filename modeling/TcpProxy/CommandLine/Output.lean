import TcpProxy.CommandLine.Words
import TcpProxy.Lib.Run

namespace TcpProxy.CommandLine

structure Output where
  bpSize : Nat
  bpBuffer : Text
deriving DecidableEq, Repr

def Output.bpIndex (o : Output) : Nat := o.bpBuffer.length

def bpinit (o : Output) : Output := {o with bpBuffer := []}

-- `text` is what vsprintf makes of the format and its arguments.
def bprint (o : Output) (text : Text) : Nat × Output :=
  if o.bpSize < o.bpIndex+80 then (0,o) else (text.length,{o with bpBuffer := o.bpBuffer ++ text})

def printAll (o : Output) (texts : List Text) : Output := Machine.run (fun o text => (bprint o text).2) o texts

-- vsprintf knows nothing of the size: the text and its NUL fit, or the call
-- writes nothing.
def Fits (o : Output) (text : Text) : Prop := o.bpIndex+80 ≤ o.bpSize → o.bpIndex+text.length < o.bpSize

instance (o : Output) (text : Text) : Decidable (Fits o text) := inferInstanceAs (Decidable (_ → _))

def AllFit (o : Output) (texts : List Text) : Prop := Machine.Along (fun o text => (bprint o text).2) Fits o texts

-- The texts that find 80 bytes in front of them, up to the first that does not.
def taken (size : Nat) : Nat → List Text → List Text
  | _,[] => []
  | index,text :: rest => if size < index+80 then [] else text :: taken size (index+text.length) rest

@[simp] theorem bprint_bpSize (o : Output) (text : Text) : (bprint o text).2.bpSize = o.bpSize := by
  unfold bprint
  split <;> rfl

theorem bprint_full (full : o.bpSize < o.bpIndex+80) (text : Text) : (bprint o text).2 = o := by
  rw [bprint,if_pos full]

theorem printAll_full (full : o.bpSize < o.bpIndex+80) (texts : List Text) : printAll o texts = o :=
  Machine.run_preserves (· = o) rfl (fun _ text same => by rw [same]; exact bprint_full full text) texts

theorem printAll_taken (o : Output) (texts : List Text) :
    printAll o texts = {o with bpBuffer := o.bpBuffer ++ (taken o.bpSize o.bpIndex texts).flatten} := by
  induction texts generalizing o with
  | nil => simp [printAll,taken]
  | cons text rest ih =>
      by_cases full : o.bpSize < o.bpIndex+80
      · rw [printAll_full full,taken,if_pos full,List.flatten_nil,List.append_nil]
      · have printed : (bprint o text).2 = {o with bpBuffer := o.bpBuffer ++ text} := by rw [bprint,if_neg full]
        have further : printAll o (text :: rest) = printAll {o with bpBuffer := o.bpBuffer ++ text} rest := by
          rw [← printed]; rfl
        rw [further,ih,taken,if_neg full,List.flatten_cons]
        simp [Output.bpIndex]

theorem taken_leads (size index : Nat) (texts : List Text) : taken size index texts <+: texts := by
  induction texts generalizing index with
  | nil => exact List.prefix_rfl
  | cons text rest ih =>
      rw [taken]
      split
      · exact List.nil_prefix
      · exact (List.prefix_cons_inj text).mpr (ih _)

theorem printAll_index (o : Output) (texts : List Text) : o.bpIndex ≤ (printAll o texts).bpIndex := by
  rw [printAll_taken]
  simp [Output.bpIndex]

theorem fits_iff (inside : o.bpIndex < o.bpSize) (text : Text) : Fits o text ↔ (bprint o text).2.bpIndex < o.bpSize := by
  rw [Fits,bprint]
  split
  · next full => exact ⟨fun _ => inside,fun _ room => absurd room (by omega)⟩
  · next room =>
      have index : Output.bpIndex {o with bpBuffer := o.bpBuffer ++ text} = o.bpIndex+text.length := by simp [Output.bpIndex]
      rw [index]
      exact ⟨fun fits => fits (by omega),fun fits _ => fits⟩

theorem allFit_iff (texts : List Text) (inside : o.bpIndex < o.bpSize) :
    AllFit o texts ↔ (printAll o texts).bpIndex < o.bpSize := by
  induction texts generalizing o with
  | nil => exact ⟨fun _ => inside,fun _ => trivial⟩
  | cons text rest ih =>
      have size := bprint_bpSize o text
      constructor
      · rintro ⟨first,later⟩
        have further := (ih (by rw [size]; exact (fits_iff inside text).mp first)).mp later
        rwa [size] at further
      · intro last
        have before : (bprint o text).2.bpIndex ≤ (printAll o (text :: rest)).bpIndex := printAll_index _ rest
        have first : (bprint o text).2.bpIndex < o.bpSize := Nat.lt_of_le_of_lt before last
        exact ⟨(fits_iff inside text).mpr first,(ih (by rwa [size])).mpr (by rw [size]; exact last)⟩

theorem short_fits (short : text.length < 80) : Fits o text := by
  intro room
  omega

theorem short_allFit (texts : List Text) (short : ∀ text ∈ texts, text.length < 80) : AllFit o texts := by
  induction texts generalizing o with
  | nil => trivial
  | cons text rest ih =>
      exact ⟨short_fits (short text (by simp)),ih fun other member => short other (List.mem_cons_of_mem _ member)⟩

-- A reply is made of the leading texts, all of them or up to where less than 80
-- bytes are left, and whether it ends inside the buffer shows whether every
-- write did.
structure Collects (size : Nat) (texts : List Text) : Prop where
  content : ∃ kept, kept <+: texts ∧ (printAll ⟨size,[]⟩ texts).bpBuffer = kept.flatten ∧
    (kept ≠ texts → size < kept.flatten.length+80)
  fit : 0 < size → (AllFit ⟨size,[]⟩ texts ↔ (printAll ⟨size,[]⟩ texts).bpIndex < size)
  short : (∀ text ∈ texts, text.length < 80) → AllFit ⟨size,[]⟩ texts

theorem taken_cut (size index : Nat) (texts : List Text) (cut : taken size index texts ≠ texts) :
    size < index+(taken size index texts).flatten.length+80 := by
  induction texts generalizing index with
  | nil => exact absurd rfl cut
  | cons text rest ih =>
      rw [taken] at cut ⊢
      split
      · next full => simpa using full
      · next free =>
          rw [if_neg free] at cut
          have further := ih (index+text.length) fun same => cut (by rw [same])
          rw [List.flatten_cons,List.length_append]
          omega

theorem collects (size : Nat) (texts : List Text) : Collects size texts := by
  refine ⟨⟨taken size 0 texts,taken_leads size 0 texts,?_,fun cut => ?_⟩,fun positive => allFit_iff texts positive,
    fun short => short_allFit texts short⟩
  · rw [printAll_taken]
    rfl
  · have remaining := taken_cut size 0 texts cut
    omega

end TcpProxy.CommandLine
