import TcpProxy.Proxying.Descriptors

namespace TcpProxy.Proxying
open AutoBlacklist LinkedChain

variable {σ α : Type} {c : Connections} {chain pool : List Nat}

-- The chain and the pool that the pointers stand for, as one would draw them.
-- A list of nodes that follows the links is finite and meets no node twice.
structure Represented (c : Connections) (chain pool : List Nat) : Prop where
  linked : Links c.nextOf c.infos chain
  mirrored : Mirrors c.prevOf none chain
  entries : c.numberOfEntries = chain.length
  flagged : ∀ e < c.numberOfAllocation, (c.memory e).inChain = true ↔ e ∈ chain
  pooled : Links c.nextOf c.pool pool
  once : chain.Nodup ∧ pool.Nodup
  apart : ∀ e ∈ chain, e ∉ pool
  everywhere : ∀ e, e < c.numberOfAllocation ↔ e ∈ chain ∨ e ∈ pool
  allocation : c.numberOfAllocation = chain.length + pool.length

theorem ConnShape.represented (shape : ConnShape c chain [] pool) : Represented c chain pool := by
  have partition : (chain ++ pool).Perm (List.range c.numberOfAllocation) := shape.partition
  refine ⟨shape.linked,shape.mirrored,shape.counted,fun e below => shape.inChain_iff below,shape.pooled,
    ⟨links_nodup shape.linked,links_nodup shape.pooled⟩,fun e member => (shape.apart member).2,fun e => ?_,?_⟩
  · rw [← List.mem_range,← partition.mem_iff,List.mem_append]
  · have length := partition.length_eq
    rw [List.length_append,List.length_range] at length
    exact length.symm

theorem Represented.first (valid : Represented c chain pool) (head : c.infos = some e) : c.prevOf e = none := by
  obtain ⟨rest,rfl,_⟩ := links_some (head ▸ valid.linked)
  exact valid.mirrored.1

-- In every state of a run the lists are as they should be. From there on, any
-- entry of the chain can be detached, and closed, and the others keep their
-- order.
theorem connection_lists_represented (ctx : Context σ α) (listener : Nat) (memory : Nat → ConnectionInfo)
    (blacklist : Table) (db : σ) (analyzer : α) (defaultServer onFailedChannel : Int) (events : List Event) :
    let s := Machine.run (step ctx) (proxyMain listener memory blacklist db analyzer defaultServer onFailedChannel)
      events
    ∃ chain pool, Represented s.conns chain pool ∧ (∀ e, s.conns.infos = some e → s.conns.prevOf e = none) ∧
      ∀ before e after, chain = before ++ e :: after →
        Links (detachConnectionInfoEntry s.conns e).nextOf (detachConnectionInfoEntry s.conns e).infos
          (before ++ after) ∧
        ∀ idle, Represented (dropConnection ctx s e idle).conns (before ++ after) (e :: pool) := by
  intro s
  obtain ⟨chain,pool,owned,_⟩ := (accounted_invariant False ctx listener).run
    (initial_accounted False listener memory blacklist db analyzer defaultServer onFailedChannel) events
    (Machine.along_mono (fun _ _ _ asked => asked.elim) (Machine.along_true events))
  have valid := owned.shape.represented
  refine ⟨chain,pool,valid,fun e head => valid.first head,?_⟩
  rintro before e after rfl
  obtain ⟨detached,_,_⟩ := detach_shape owned.shape
  refine ⟨detached.linked,fun idle => ?_⟩
  exact (drop_spec ctx s idle owned.shape).1.represented

end TcpProxy.Proxying
