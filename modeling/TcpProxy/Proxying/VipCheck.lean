import TcpProxy.Proxying.Recording
import TcpProxy.Proxying.RecordKeeping

namespace TcpProxy.Proxying
open AutoBlacklist Database

variable {α : Type}

inductive Ending where
  | notConnected
  | notPrepared
  | failed
  | executed (affectedRows : Nat)
deriving DecidableEq, Repr

def endingOf (s : DbService) (name : QueryName) (parameters : List Parameter) : Ending :=
  match connectToDatabase s with
  | (true,s) =>
    match retrieveStatement s name with
    | (some stmt,s) =>
      match (dbmysqlLocalExecute s name stmt parameters).1 with
      | some reply => .executed reply.affectedRows
      | none => .failed
    | (none,_) => .notPrepared
  | (false,_) => .notConnected

def Ending.answer : Ending → Int
  | .notConnected | .notPrepared => 0
  | .failed => -1
  | .executed affectedRows => toInt32 affectedRows

theorem updateOnce_answer (s : DbService) (name : QueryName) (parameters : List Parameter) :
    (updateOnce s name parameters).1 = (endingOf s name parameters).answer := by
  unfold updateOnce endingOf
  generalize connectToDatabase s = connection
  obtain ⟨connected,s⟩ := connection
  cases connected with
  | false => rfl
  | true =>
      dsimp only
      generalize retrieveStatement s name = retrieved
      obtain ⟨stmt,s⟩ := retrieved
      cases stmt with
      | none => rfl
      | some stmt =>
          dsimp only [dbmysqlExecuteUpdate]
          generalize dbmysqlLocalExecute s name stmt parameters = executed
          obtain ⟨reply,s⟩ := executed
          cases reply with
          | none => rfl
          | some reply => simp only [Ending.answer]

def beforeVip (db : DbService) (remoteIp : String) : DbService :=
  (connectionBlacklisted (checkAvailable db remoteIp).2 remoteIp).2

def vipEnding (db : DbService) (remoteIp : String) : Ending :=
  endingOf (beforeVip db remoteIp) .checkVip [.string remoteIp]

-- An answer that is not zero comes from a statement that failed or from one
-- that has found the address.
theorem answer_nonzero {ending : Ending} (nonzero : ending.answer ≠ 0) :
    ending = .failed ∨ ∃ rows, ending = .executed rows ∧ 1 ≤ rows := by
  cases ending with
  | notConnected => exact absurd rfl nonzero
  | notPrepared => exact absurd rfl nonzero
  | failed => exact .inl rfl
  | executed rows =>
      refine .inr ⟨rows,rfl,Nat.one_le_iff_ne_zero.mpr ?_⟩
      rintro rfl
      exact nonzero (by decide)

def windowCount (t : Table) (now : Timeval) (address : UInt32) : Int :=
  let (e,t) := findAndIncrease t now address
  (t.memory e).counter

section Above
variable {σ : Type} {ctx : Context σ α} {s : Proxy σ α} {remoteIp : String} {now : Timeval} {peer : Peer}

theorem guessChannel_above (db : σ) (channel : Int) (above : ctx.settings.connectionThreshold < accessCounter) :
    guessChannel ctx s db remoteIp accessCounter channel = (channel,db) := by
  have guesses : ¬ (s.onFailedChannel ≠ s.defaultServer ∧ ctx.settings.connectionThreshold-7 < accessCounter ∧
      accessCounter ≤ ctx.settings.connectionThreshold ∧ accessCounter % 2 = 0) := by omega
  rw [guessChannel,if_neg guesses]

theorem limitAccess_above (ctx : Context σ α) (s : Proxy σ α) (remoteIp : String) (channel : Int)
    (above : ctx.settings.connectionThreshold < windowCount s.blacklist now address) :
    0 ≤ (limitAccess ctx s remoteIp now address false channel).1.channel ↔
      0 ≤ channel ∧ (ctx.db.checkVip s.db remoteIp).1 ≠ 0 := by
  simp only [windowCount] at above
  simp only [limitAccess,Bool.false_eq_true,if_false,guessChannel_above _ _ above,checkThreshold,above,if_true]
  by_cases zero : (ctx.db.checkVip s.db remoteIp).1 = 0
  · simp [zero]
  · simp [zero]

theorem limitAccess_blacklisted (ctx : Context σ α) (s : Proxy σ α) (remoteIp : String) (now : Timeval)
    (address : UInt32) (blocked : channel < 0) :
    (limitAccess ctx s remoteIp now address true channel).1.channel < 0 := by
  simpa [limitAccess] using blocked

-- An attempt above the threshold is forwarded if the address is not on the
-- blacklist and check_vip does not answer zero.
theorem admitPeer_above (v4 : peer.isV4 = true)
    (unknown : (ctx.db.checkAvailable s.db (inetNtop peer.address)).1 = none)
    (listed : checkRemoteIpInWhitelist ctx.settings (inetNtop peer.address) = true)
    (above : ctx.settings.connectionThreshold < windowCount s.blacklist now peer.address.w3) :
    let black := ctx.db.connectionBlacklisted (ctx.db.checkAvailable s.db (inetNtop peer.address)).2
      (inetNtop peer.address)
    0 ≤ (admitPeer ctx s now peer).1.channel ↔
      black.1 ≤ 0 ∧ 0 ≤ s.defaultServer ∧ (ctx.db.checkVip black.2 (inetNtop peer.address)).1 ≠ 0 := by
  intro black
  have admitted : admitPeer ctx s now peer = limitAccess ctx {s with db := black.2} (inetNtop peer.address) now
      peer.address.w3 (0 < black.1) (if decide (0 < black.1) = true then -1 else s.defaultServer) := by
    simp only [admitPeer,unknown,listed,v4,if_true,black]
  rw [admitted]
  by_cases blocked : 0 < black.1
  · have refused := limitAccess_blacklisted ctx {s with db := black.2} (inetNtop peer.address) now peer.address.w3
      (by decide : (-1 : Int) < 0)
    simp only [blocked,decide_true,if_true]
    omega
  · simp only [blocked,decide_false,Bool.false_eq_true,if_false]
    rw [limitAccess_above ctx {s with db := black.2} _ _ above]
    constructor
    · rintro ⟨channel,vip⟩
      exact ⟨Int.not_lt.mp blocked,channel,vip⟩
    · rintro ⟨_,channel,vip⟩
      exact ⟨channel,vip⟩

end Above

def forwards {σ : Type} (ctx : Context σ α) (s : Proxy σ α) (input : AcceptInput) : Prop :=
  ∃ peer, input.peer = some peer ∧ 0 ≤ (admitPeer ctx s input.now peer).1.channel

theorem forwards_peer {σ : Type} (ctx : Context σ α) (s : Proxy σ α) {input : AcceptInput} (peerAt : input.peer = some peer) :
    forwards ctx s input ↔ 0 ≤ (admitPeer ctx s input.now peer).1.channel := by
  refine ⟨?_,fun admitted => ⟨peer,peerAt,admitted⟩⟩
  rintro ⟨peer',peerAt',admitted⟩
  obtain rfl := Option.some.inj (peerAt.symm.trans peerAt')
  exact admitted

-- What the limit promises of an attempt: beyond the threshold it is for those
-- whom the VIP statement has found, and nobody whom check_vip has reported is
-- put on the blacklist.
structure LimitKept (settings : Settings) (plugin : Plugin α) (s : Proxy DbService α) (fdc connectionId : Int)
    (input : AcceptInput) (peer : Peer) : Prop where
  forwarded : settings.connectionThreshold < windowCount s.blacklist input.now peer.address.w3 →
    forwards (installation settings plugin) s input →
    ∃ rows, vipEnding s.db (inetNtop peer.address) = .executed rows ∧ 1 ≤ rows
  inserted : Vetted (callsOf (installation settings plugin) s fdc connectionId input)

-- A statement that fails is reported as -1, which is not zero either.
def LimitLifted (settings : Settings) (s : Proxy DbService α) (now : Timeval) (peer : Peer) : Prop :=
  settings.connectionThreshold < windowCount s.blacklist now peer.address.w3 ∧
  (connectionBlacklisted (checkAvailable s.db (inetNtop peer.address)).2 (inetNtop peer.address)).1 ≤ 0 ∧
  0 ≤ s.defaultServer ∧ vipEnding s.db (inetNtop peer.address) = .failed

instance (settings : Settings) (s : Proxy DbService α) (now : Timeval) (peer : Peer) :
    Decidable (LimitLifted settings s now peer) := inferInstanceAs (Decidable (_ ∧ _ ∧ _ ∧ _))

theorem callsOf_guarded {σ : Type} (ctx : Context σ α) (s : Proxy σ α) (fdc connectionId : Int) (input : AcceptInput) :
    Vetted (callsOf ctx s fdc connectionId input) := by
  cases peerAt : input.peer with
  | none =>
      simp only [callsOf,acceptingRequest,peerAt,watch_db]
      exact Deciding.nil.guarded
  | some peer =>
      obtain ⟨more,decides,calls⟩ := callsOf_known ctx s fdc connectionId input peerAt
      rw [calls]
      split
      · exact decides.guarded.append Deciding.nil.guarded
      · exact decides.guarded.append (Vetted.one (by simp))

theorem forwards_above {settings : Settings} (plugin : Plugin α) {s : Proxy DbService α} {input : AcceptInput}
    {peer : Peer} (peerAt : input.peer = some peer) (v4 : peer.isV4 = true)
    (unknown : (checkAvailable s.db (inetNtop peer.address)).1 = none)
    (listed : checkRemoteIpInWhitelist settings (inetNtop peer.address) = true)
    (above : settings.connectionThreshold < windowCount s.blacklist input.now peer.address.w3) :
    forwards (installation settings plugin) s input ↔
      (connectionBlacklisted (checkAvailable s.db (inetNtop peer.address)).2 (inetNtop peer.address)).1 ≤ 0 ∧
      0 ≤ s.defaultServer ∧ (vipEnding s.db (inetNtop peer.address)).answer ≠ 0 := by
  have decided : 0 ≤ (admitPeer (installation settings plugin) s input.now peer).1.channel ↔ _ :=
    admitPeer_above v4 unknown listed above
  rw [vipEnding,← updateOnce_answer]
  exact (forwards_peer _ s peerAt).trans decided

theorem limit_kept_iff (settings : Settings) (plugin : Plugin α) (s : Proxy DbService α) (fdc connectionId : Int)
    (input : AcceptInput) (peer : Peer) (peerAt : input.peer = some peer) (v4 : peer.isV4 = true)
    (unknown : (checkAvailable s.db (inetNtop peer.address)).1 = none)
    (listed : checkRemoteIpInWhitelist settings (inetNtop peer.address) = true) :
    (LimitKept settings plugin s fdc connectionId input peer ↔ ¬ LimitLifted settings s input.now peer) ∧
    TakesBranch (installation settings plugin) s fdc connectionId input peer (forwards (installation settings plugin) s input)
      (acceptingRequest (installation settings plugin) s fdc connectionId input) := by
  refine ⟨⟨?_,?_⟩,?_⟩
  · rintro ⟨forwarded,_⟩ ⟨above,free,channel,failed⟩
    have nonzero : (vipEnding s.db (inetNtop peer.address)).answer ≠ 0 := by
      rw [failed]
      decide
    have passes := (forwards_above plugin peerAt v4 unknown listed above).mpr ⟨free,channel,nonzero⟩
    obtain ⟨rows,executed,_⟩ := forwarded above passes
    rw [failed] at executed
    cases executed
  · intro kept
    refine ⟨fun above passes => ?_,callsOf_guarded _ s fdc connectionId input⟩
    obtain ⟨free,channel,nonzero⟩ := (forwards_above plugin peerAt v4 unknown listed above).mp passes
    rcases answer_nonzero nonzero with failed | found
    · exact absurd ⟨above,free,channel,failed⟩ kept
    · exact found
  · have same := forwards_peer (installation settings plugin) s peerAt
    simpa only [same] using acceptingRequest_branch (installation settings plugin) s fdc connectionId input peerAt

-- No attempt is free here. The database knows nobody, and MySQL executes the
-- VIP statement, the eleventh thing it is asked for, or it does not.
def noneFree : Settings := ⟨fun _ => ⟨"10.0.0.2",1688⟩,1,0,100,6,86400,["::ffff:127."]⟩

def quietPlugin : Plugin Unit := ⟨fun a => (none,a),fun a _ => a,fun a _ _ _ _ => (a,[])⟩

def unguarded (executes : Bool) : Proxy DbService Unit :=
  let replies (n : Nat) : Reply := ⟨⟨0,0⟩,true,true,n ≠ 10 ∨ executes,0,none,0,[some ⟨[],0⟩]⟩
  proxyMain 3 (fun _ => default) (newAutoBlacklistService 7 120 fun _ => default)
    (newDatabaseService true (fun _ => some "") 3600 0 replies) () 0 0

def mappedPeer : Peer := ⟨true,0,0,0xffff0000,0x0100007f⟩

theorem limit_kept_iff_nobody_found :
    (visitor 5 6).peer = some mappedPeer ∧
    LimitKept noneFree quietPlugin (unguarded true) 5 1 (visitor 5 6) mappedPeer :=
  ⟨rfl,(limit_kept_iff noneFree quietPlugin (unguarded true) 5 1 (visitor 5 6) mappedPeer rfl (by decide)
    (by decide +kernel) (by decide +kernel)).1.mpr (by decide +kernel)⟩

theorem failed_vip_check_lifts_limit :
    (visitor 5 6).peer = some mappedPeer ∧ mappedPeer.isV4 = true ∧
    (checkAvailable (unguarded false).db (inetNtop mappedPeer.address)).1 = none ∧
    checkRemoteIpInWhitelist noneFree (inetNtop mappedPeer.address) = true ∧
    ¬ LimitKept noneFree quietPlugin (unguarded false) 5 1 (visitor 5 6) mappedPeer := by
  refine ⟨rfl,by decide,by decide +kernel,by decide +kernel,?_⟩
  intro kept
  obtain ⟨rows,executed,_⟩ := kept.forwarded (by decide +kernel) ⟨mappedPeer,rfl,by decide +kernel⟩
  have failed : vipEnding (unguarded false).db (inetNtop mappedPeer.address) = .failed := by decide +kernel
  rw [failed] at executed
  cases executed

end TcpProxy.Proxying
