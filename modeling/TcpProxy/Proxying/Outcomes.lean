import TcpProxy.Proxying.Recording
import TcpProxy.Proxying.Descriptors

namespace TcpProxy.Proxying
open AutoBlacklist LinkedChain

variable {σ α : Type} {ctx : Context σ α} {s : Proxy σ α} {input : AcceptInput} {peer : Peer}

inductive Outcome where
  | relayed
  | unreachable
  | refused
deriving DecidableEq, Repr

def Call.refuses : Call → Bool
  | .connectionNotAllowed _ => true
  | _ => false

-- The descriptor was closed, and only once: closing it again would be noted.
structure ShutOnce (before after : Sockets) (fd : Int) : Prop where
  present : before.table fd ≠ none
  gone : after.table fd = none
  closes : after.badCloses = before.badCloses

structure Attached (before after : Connections) (fdc : Int) (e : Nat) (chain : List Nat) : Prop where
  outside : e ∉ chain
  old : Links before.nextOf before.infos chain
  new : Links after.nextOf after.infos (e :: chain)
  client : (after.memory e).clientFd = fdc

-- How an attempt on the descriptor fdc has ended, judged by what it has left
-- behind and by its calls of the database.
def Ends (before after : Proxy σ α) (fdc : Int) (calls : List Call) : Outcome → Prop
  | .relayed => (∃ e chain, Attached before.conns after.conns fdc e chain) ∧
      after.sockets.table fdc = before.sockets.table fdc ∧ before.sockets.table fdc ≠ none ∧
      calls.countP Call.refuses = 0
  | .unreachable => ShutOnce before.sockets after.sockets fdc ∧ after.conns = before.conns ∧
      calls.countP Call.refuses = 0
  | .refused => ShutOnce before.sockets after.sockets fdc ∧ after.conns = before.conns ∧
      calls.countP Call.refuses = 1

theorem ends_unique {before after : Proxy σ α} (one : Ends before after fdc calls outcome)
    (two : Ends before after fdc calls other) : outcome = other := by
  have apart : ∀ {outcome}, Ends before after fdc calls .relayed → Ends before after fdc calls outcome →
      outcome = .relayed := by
    rintro outcome ⟨_,kept,present,_⟩ ended
    cases outcome with
    | relayed => rfl
    | unreachable => exact absurd (kept.symm.trans ended.1.gone) present
    | refused => exact absurd (kept.symm.trans ended.1.gone) present
  cases outcome with
  | relayed => exact (apart one two).symm
  | unreachable =>
      cases other with
      | relayed => exact apart two one
      | unreachable => rfl
      | refused => exact absurd (one.2.2.symm.trans two.2.2) (by decide)
  | refused =>
      cases other with
      | relayed => exact apart two one
      | unreachable => exact absurd (one.2.2.symm.trans two.2.2) (by decide)
      | refused => rfl

theorem shut_once {before after : Sockets} (path : Opened before after fds) (present : before.table fd = some k) :
    ShutOnce before (after.close fd) fd := by
  have still := path.kept fd k present
  refine ⟨by simp [present],?_,?_⟩
  · simp [close_open still]
  · rw [close_open still]
    exact path.closes

def outcomeOf (ctx : Context σ α) (s : Proxy σ α) (input : AcceptInput) (peer : Peer) : Outcome :=
  let admission := (admitPeer ctx s input.now peer).1
  if 0 ≤ admission.channel then
    if 0 ≤ (connectHost s.sockets (serverFor ctx admission) input).1 then .relayed else .unreachable
  else .refused

theorem refuses_none (decides : Deciding calls) : calls.countP Call.refuses = 0 := by
  refine List.countP_eq_zero.mpr fun call member => ?_
  cases call with
  | connectionNotAllowed remoteIp => exact absurd member (decides.silent remoteIp)
  | _ => simp [Call.refuses]

theorem connectHost_path (s : Sockets) (server : RemoteServer) (input : AcceptInput) :
    ∃ fds, Opened s (connectHost s server input).2 fds := by
  rcases connectHost_cases s server input with ⟨_,_,path⟩ | ⟨_,_,path⟩ | ⟨_,_,path⟩
  · exact ⟨_,path⟩
  · exact ⟨_,path⟩
  · exact ⟨_,path⟩

theorem attempt_ends (ctx : Context σ α) (fdc connectionId : Int) (peerAt : input.peer = some peer)
    (shape : ConnShape s.conns chain [] pool) (present : s.sockets.table fdc = some k) :
    Ends s (acceptingRequest ctx s fdc connectionId input) fdc (callsOf ctx s fdc connectionId input)
      (outcomeOf ctx s input peer) := by
  obtain ⟨db,blacklist,_,outcome⟩ := acceptingRequest_cases ctx s fdc connectionId input peerAt
  obtain ⟨more,decides,calls⟩ := callsOf_known ctx s fdc connectionId input peerAt
  obtain ⟨fds,path⟩ := connectHost_path s.sockets (serverFor ctx (admitPeer ctx s input.now peer).1) input
  have silent := refuses_none decides
  rw [outcome,calls,outcomeOf]
  by_cases admitted : 0 ≤ (admitPeer ctx s input.now peer).1.channel
  · simp only [if_pos admitted,List.append_nil]
    by_cases connected : 0 ≤ (connectHost s.sockets (serverFor ctx (admitPeer ctx s input.now peer).1) input).1
    · simp only [if_pos connected]
      obtain ⟨⟨rest,attached⟩,outside,_,fields,_⟩ := establish_spec ctx
        {s with db := db,blacklist := blacklist,sockets := _} fdc _ connectionId _ (inetNtop peer.address) input shape
      refine ⟨⟨_,chain,outside,shape.linked,attached.linked,by rw [fields]⟩,?_,by simp [present],silent⟩
      exact (path.kept fdc k present).trans present.symm
    · simp only [if_neg connected]
      exact ⟨shut_once path present,rfl,silent⟩
  · simp only [if_neg admitted]
    exact ⟨shut_once (Opened.refl _) present,rfl,by simp [silent,Call.refuses]⟩

theorem admitPeer_denied (unknown : (ctx.db.checkAvailable s.db (inetNtop peer.address)).1 = none)
    (denied : checkRemoteIpInWhitelist ctx.settings (inetNtop peer.address) = false ∨
      0 < (ctx.db.connectionBlacklisted (ctx.db.checkAvailable s.db (inetNtop peer.address)).2
        (inetNtop peer.address)).1) (now : Timeval) : (admitPeer ctx s now peer).1.channel < 0 := by
  simp only [admitPeer,unknown]
  by_cases listed : checkRemoteIpInWhitelist ctx.settings (inetNtop peer.address) = true
  · have black := denied.resolve_left (by simp [listed])
    simp only [listed,if_true,black,decide_true]
    cases peer.isV4 with
    | true => simp [limitAccess]
    | false => simp
  · simp [listed]

theorem admitPeer_request (request : (ctx.db.checkAvailable s.db (inetNtop peer.address)).1 = some row)
    (now : Timeval) : (admitPeer ctx s now peer).1.requestInDb = some row ∧
      (admitPeer ctx s now peer).1.channel = row.channel ∧ (admitPeer ctx s now peer).2.blacklist = s.blacklist := by
  simp [admitPeer,request]

theorem forward_request (ctx : Context σ α) (s : Proxy σ α) (fdc connectionId : Int) (remoteIp : String)
    (input : AcceptInput) (request : Admission.requestInDb admission = some row) :
    (forward ctx s fdc connectionId admission remoteIp input).blacklist = s.blacklist := by
  simp only [forward,request]
  rw [apply_ite Proxy.blacklist,(establish_frame ctx _ _ _ _ _ _ _).2.1,ite_self]

end TcpProxy.Proxying
