import Mathlib.Data.List.Basic

namespace PieceStream

-- One direction of a connection: what was written and has not been read, and
-- what the writer has still to write. A piece is written as a whole, the body
-- behind the pieces in as many parts as the writer likes.
structure Channel (α : Type) where
  wire : List α
  pieces : List (List α)
  body : List α
deriving DecidableEq, Repr

variable {α : Type}

def empty : Channel α := ⟨[],[],[]⟩

def Channel.write (c : Channel α) (n : Nat) : Channel α :=
  match c.pieces with
  | piece :: rest => {c with wire := c.wire ++ piece,pieces := rest}
  | [] => {c with wire := c.wire ++ c.body.take n,body := c.body.drop n}

def Channel.written (c : Channel α) : Bool := c.pieces.isEmpty && c.body.isEmpty

def Channel.read (c : Channel α) (n : Nat) : List α × Channel α := (c.wire.take n,{c with wire := c.wire.drop n})

-- The reader has these pieces and this body still before it.
def Carries (c : Channel α) (pieces : List (List α)) (body : List α) : Prop :=
  ∃ arrived part, arrived ++ c.pieces = pieces ∧ c.wire = arrived.flatten ++ part ∧ part ++ c.body = body ∧
    (c.pieces ≠ [] → part = [])

variable {c : Channel α} {pieces : List (List α)} {piece body : List α}

theorem carries_start (pieces : List (List α)) (body : List α) : Carries ⟨[],pieces,body⟩ pieces body :=
  ⟨[],[],rfl,rfl,rfl,fun _ => rfl⟩

theorem write_carries (carries : Carries c pieces body) (n : Nat) : Carries (c.write n) pieces body := by
  obtain ⟨arrived,part,all,wire,whole,first⟩ := carries
  cases left : c.pieces with
  | cons piece rest =>
      obtain rfl : part = [] := first (by simp [left])
      refine ⟨arrived ++ [piece],[],?_,?_,?_,fun _ => rfl⟩
      · simpa [Channel.write,left] using all
      · simp [Channel.write,left,wire]
      · simpa [Channel.write,left] using whole
  | nil =>
      refine ⟨arrived,part ++ c.body.take n,?_,?_,?_,?_⟩
      · simpa [Channel.write,left] using all
      · simp [Channel.write,left,wire]
      · simpa [Channel.write,left] using whole
      · intro more
        simp [Channel.write,left] at more

-- The first piece is on the wire as soon as anything is.
theorem read_piece (carries : Carries c (piece :: pieces) body) (present : c.wire ≠ []) :
    (c.read piece.length).1 = piece ∧ Carries (c.read piece.length).2 pieces body := by
  obtain ⟨arrived,part,all,wire,whole,first⟩ := carries
  cases arrived with
  | nil =>
      rw [List.nil_append] at all
      obtain rfl : part = [] := first (by simp [all])
      exact absurd wire present
  | cons head arrived =>
      obtain ⟨rfl,rest⟩ := List.cons.inj all
      have front : c.wire = head ++ (arrived.flatten ++ part) := by simpa using wire
      refine ⟨?_,arrived,part,rest,?_,whole,first⟩
      · rw [Channel.read,front,List.take_left]
      · rw [Channel.read,front]
        exact List.drop_left

theorem read_body (carries : Carries c [] body) (n : Nat) :
    ∃ rest, (c.read n).1 ++ rest = body ∧ Carries (c.read n).2 [] rest := by
  obtain ⟨arrived,part,all,wire,whole,_⟩ := carries
  obtain ⟨rfl,absent⟩ := List.append_eq_nil_iff.mp all
  have here : c.wire = part := wire
  refine ⟨part.drop n ++ c.body,?_,[],part.drop n,?_,?_,rfl,fun more => absurd absent more⟩
  · rw [Channel.read,here,← List.append_assoc,List.take_append_drop,whole]
  · exact absent
  · rw [Channel.read,here]; rfl

theorem carries_nil (carries : Carries c [] []) : c = empty := by
  obtain ⟨arrived,part,all,wire,whole,_⟩ := carries
  obtain ⟨rfl,absent⟩ := List.append_eq_nil_iff.mp all
  obtain ⟨rfl,nothing⟩ := List.append_eq_nil_iff.mp whole
  cases c
  cases wire
  cases absent
  cases nothing
  rfl

theorem carries_written (carries : Carries c pieces body) (done : c.written = true) : c.wire = pieces.flatten ++ body := by
  obtain ⟨arrived,part,all,wire,whole,_⟩ := carries
  rw [Channel.written,Bool.and_eq_true,List.isEmpty_iff,List.isEmpty_iff] at done
  rw [done.1,List.append_nil] at all
  rw [done.2,List.append_nil] at whole
  rw [wire,all,whole]

end PieceStream
