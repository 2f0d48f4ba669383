import TcpProxy.CommandLine.Remote

namespace TcpProxy.CommandLine
open PieceStream

section

variable {World Moment Change : Type} {p : Program World Moment Change} {bpSize : Nat} {initial : World}
variable {s : Session World Moment Change} {owed : List Reply} {sent : List Text} {due : Text}

def Client.waits : Client → Bool
  | .greeted | .banner _ | .retval _ | .length _ _ | .body _ _ _ _ => true
  | _ => false

def Client.ready : Client → Bool
  | .prompt | .away => true
  | _ => false

-- What the two processes do without any help.
inductive Unaided (moment : Moment) : Event Moment Change → Prop where
  | reads : Unaided moment .clientReads
  | serves : Unaided moment (.serverReads moment)
  | writes (n : Nat) : Unaided moment (.serverWrites n)

-- A byte that is written has still to be read.
def work (s : Session World Moment Change) : Nat :=
  2*(s.toClient.pieces.flatten.length+s.toClient.body.length)+s.toClient.wire.length

structure Replying (s : Session World Moment Change) : Prop where
  linked : ∃ owed sent due, Linked s owed sent due
  waits : s.client.waits = true
  taken : s.toServer = []
  alive : s.serving ≠ .gone

theorem carries_pieces {c : Channel UInt8} {pieces : List Text} {body : Text} (carries : Carries c pieces body)
    (member : piece ∈ c.pieces) : piece ∈ pieces := by
  obtain ⟨arrived,part,all,_⟩ := carries
  rw [← all]
  exact List.mem_append_right arrived member

theorem replying_carries (linked : Linked s owed sent due) (waits : s.client.waits = true) (taken : s.toServer = []) :
    ∃ pieces body on, Carries s.toClient pieces body ∧ pieces.flatten ++ body ≠ [] ∧ After s on ∧
      ∀ piece ∈ pieces, ∃ n, piece = intBytes n := by
  cases linked with
  | away client => rw [client] at waits; cases waits
  | lost client => rw [client] at waits; cases waits
  | prompt client => rw [client] at waits; cases waits
  | connected client pid toServer => exact absurd (toServer.symm.trans taken) (intBytes_ne_nil pid)
  | sent line client toServer nonempty => exact absurd (toServer.symm.trans taken) nonempty
  | greeted client toServer short carries after =>
      exact ⟨_,_,_,carries,by simp [intBytes_ne_nil],after,by simp⟩
  | banner left client toServer length nonempty carries after =>
      exact ⟨_,_,_,carries,by simpa using nonempty,after,by simp⟩
  | retval line retval client toServer low high short carries after =>
      exact ⟨_,_,_,carries,by simp [intBytes_ne_nil],after,by simp⟩
  | length line retval client toServer short carries after =>
      exact ⟨_,_,_,carries,by simp [intBytes_ne_nil],after,by simp⟩
  | body line retval left shown client toServer length nonempty carries after =>
      exact ⟨_,_,_,carries,by simpa using nonempty,after,by simp⟩

theorem replying_writes (replying : Replying s) (nothing : s.toClient.wire = []) :
    Replying (serverWrites s 0) ∧ work (serverWrites s 0) < work s := by
  obtain ⟨owed,sent,due,linked⟩ := replying.linked
  obtain ⟨pieces,body,on,carries,more,after,ints⟩ := replying_carries linked replying.waits replying.taken
  have still := serverWrites_linked linked 0
  have writing : ∃ on, s.serving = .writing on := by
    rcases after with gone | writing | ⟨written,_⟩
    · exact absurd gone replying.alive
    · exact ⟨on,writing⟩
    · exact absurd ((carries_written carries written).symm.trans nothing) more
  obtain ⟨on,writing⟩ := writing
  have wrote : serverWrites s 0 = {s with toClient := s.toClient.write 1} := by simp only [serverWrites,writing]
  rw [wrote] at still ⊢
  refine ⟨⟨⟨owed,sent,due,still⟩,replying.waits,replying.taken,replying.alive⟩,?_⟩
  unfold work Channel.write
  cases ahead : s.toClient.pieces with
  | cons piece rest =>
      obtain ⟨n,rfl⟩ := ints piece (carries_pieces carries (by rw [ahead]; exact List.mem_cons_self))
      have four := intBytes_length n
      simp only [nothing,List.flatten_cons,List.length_append,List.length_nil,four]
      omega
  | nil =>
      cases text : s.toClient.body with
      | nil =>
          have written : s.toClient.written = true := by simp [Channel.written,ahead,text]
          exact absurd ((carries_written carries written).symm.trans nothing) more
      | cons c rest =>
          simp only [nothing,List.flatten_nil,List.length_nil,List.length_append,List.length_take,List.length_drop,
            List.length_cons]
          omega

theorem received_work (arrived : s.toClient.wire ≠ []) (positive : 0 < n) : work (received s n) < work s := by
  have length := List.length_pos_iff.mpr arrived
  simp only [work,Channel.read,List.length_drop]
  omega

theorem showChunk_work (s : Session World Moment Change) (line : Text) (retval left : Int) (shown : Text) :
    (showChunk s line retval left shown).client.ready = true ∨ work (showChunk s line retval left shown) = work s := by
  unfold showChunk finish
  split
  · exact .inr rfl
  · split <;> exact .inl rfl

theorem clientReads_work (linked : Linked s owed sent due) (waits : s.client.waits = true) (arrived : s.toClient.wire ≠ []) :
    (clientReads s).client.ready = true ∨ work (clientReads s) < work s := by
  have chunk : ∀ next, work next < work s → (∃ line retval left shown, clientReads s = showChunk next line retval left shown) →
      (clientReads s).client.ready = true ∨ work (clientReads s) < work s := by
    rintro next less ⟨line,retval,left,shown,read⟩
    rw [read]
    rcases showChunk_work next line retval left shown with ready | same
    · exact .inl ready
    · exact .inr (by rw [same]; exact less)
  cases linked with
  | away client => rw [client] at waits; cases waits
  | lost client => rw [client] at waits; cases waits
  | prompt client => rw [client] at waits; cases waits
  | connected client pid toServer toClient => exact absurd (by rw [toClient]; rfl) arrived
  | sent line client toServer more toClient => exact absurd (by rw [toClient]; rfl) arrived
  | greeted client toServer short carries after =>
      obtain ⟨got,_⟩ := read_int carries arrived
      have read : clientReads s = {received s 4 with client := if (0 : Int) < due.length then .banner due.length else .prompt} := by
        simp only [clientReads,client,if_neg arrived,got,readInt_length short]
      rw [read]
      exact .inr (received_work arrived (by decide))
  | banner left client toServer length more carries after =>
      have positive := List.length_pos_iff.mpr more
      have read : ∃ client', clientReads s = {displayed s left.toNat with client := client'} := by
        simp only [clientReads,client,if_neg arrived]
        exact ⟨_,rfl⟩
      obtain ⟨client',read⟩ := read
      rw [read]
      have less : work (received s left.toNat) < work s := received_work arrived (by omega)
      exact .inr less
  | retval line retval client toServer low high short carries after =>
      obtain ⟨got,_⟩ := read_int carries arrived
      have read : clientReads s = {received s 4 with client := .length line retval} := by
        simp only [clientReads,client,if_neg arrived,got,readInt_intBytes low high]
      rw [read]
      exact .inr (received_work arrived (by decide))
  | length line retval client toServer short carries after =>
      obtain ⟨got,_⟩ := read_int carries arrived
      refine chunk (received s 4) (received_work arrived (by decide)) ⟨line,retval,due.length,[],?_⟩
      simp only [clientReads,client,if_neg arrived,got,readInt_length short]
  | body line retval left shown client toServer length more carries after =>
      have positive := List.length_pos_iff.mpr more
      have less : work (received s (min 1023 left.toNat)) < work s := received_work arrived (by omega)
      refine chunk (displayed s (min 1023 left.toNat)) less ?_
      simp only [clientReads,client,if_neg arrived]
      exact ⟨line,retval,_,_,rfl⟩

theorem clientReads_toServer (taken : s.toServer = []) : (clientReads s).toServer = [] := by
  unfold clientReads showChunk finish blocked
  repeat' split
  all_goals first | exact taken | rfl

theorem replying_reads (replying : Replying s) (arrived : s.toClient.wire ≠ []) :
    (clientReads s).client.ready = true ∨ Replying (clientReads s) ∧ work (clientReads s) < work s := by
  obtain ⟨owed,sent,due,linked⟩ := replying.linked
  obtain ⟨owed',due',linked',_⟩ := clientReads_linked linked
  obtain ⟨_,clear,lost⟩ := linked_bounds linked'
  obtain ⟨_,_,_,_,_,same⟩ := clientReads_frame s
  have alive : (clientReads s).serving ≠ .gone := by
    rw [same]
    exact replying.alive
  rcases clientReads_work linked replying.waits arrived with ready | less
  · exact .inl ready
  · cases client : (clientReads s).client with
    | away => exact .inl rfl
    | prompt => exact .inl rfl
    | lost => exact absurd (lost client) alive
    | confused => exact absurd client clear
    | _ => exact .inr ⟨⟨⟨owed',sent,due',linked'⟩,by rw [client]; rfl,clientReads_toServer replying.taken,alive⟩,less⟩

theorem replying_answered (moment : Moment) (replying : Replying s) :
    ∃ events, (∀ event ∈ events, Unaided moment event) ∧ (Machine.run (step p) s events).client.ready = true := by
  induction remaining : work s using Nat.strong_induction_on generalizing s with
  | h n ih =>
      subst remaining
      by_cases nothing : s.toClient.wire = []
      · obtain ⟨still,less⟩ := replying_writes replying nothing
        obtain ⟨events,own,ready⟩ := ih _ less still rfl
        refine ⟨.serverWrites 0 :: events,?_,ready⟩
        intro event member
        rcases List.mem_cons.mp member with rfl | later
        · exact .writes 0
        · exact own event later
      · rcases replying_reads replying nothing with ready | ⟨still,less⟩
        · exact ⟨[.clientReads],by simp [Unaided.reads],ready⟩
        · obtain ⟨events,own,ready⟩ := ih _ less still rfl
          refine ⟨.clientReads :: events,?_,ready⟩
          intro event member
          rcases List.mem_cons.mp member with rfl | later
          · exact .reads
          · exact own event later

theorem requesting_served (sound : Sound p bpSize) (kept : Kept p bpSize initial s) (alive : s.serving ≠ .gone)
    (waits : s.client.waits = true) (pending : s.toServer ≠ []) (whole : s.toServer.length ≤ 4095) (moment : Moment) :
    ∃ events, (∀ event ∈ events, Unaided moment event) ∧ Replying (Machine.run (step p) s events) := by
  obtain ⟨owed,sent,due,linked,_⟩ := kept.linked
  have replying : ∀ t : Session World Moment Change, Kept p bpSize initial t → t.client = s.client → t.toServer = [] →
      t.serving ≠ .gone → Replying t := by
    intro t kept client taken alive
    obtain ⟨owed,sent,due,linked,_⟩ := kept.linked
    exact ⟨⟨owed,sent,due,linked⟩,by rw [client]; exact waits,taken,alive⟩
  cases linked with
  | away client => rw [client] at waits; cases waits
  | lost client => rw [client] at waits; cases waits
  | prompt client => rw [client] at waits; cases waits
  | connected client pid toServer toClient serving =>
      have greeting := serving.resolve_right alive
      have served := greeting_kept sound kept greeting moment
      refine ⟨[.serverReads moment],by simp [Unaided.serves],replying _ served ?_ ?_ ?_⟩
      all_goals simp only [Machine.run_cons,Machine.run_nil,step,serverReads,greeting,if_neg pending]
      · rw [toServer]
        exact List.drop_eq_nil_of_le (by rw [intBytes_length])
      · exact fun gone => by cases gone
  | sent line client toServer nonempty toClient after =>
      have read : ∀ t : Session World Moment Change, Kept p bpSize initial t → t.serving = .reading → t.client = s.client →
          t.toServer = s.toServer → Replying (step p t (.serverReads moment)) := by
        intro t kept reading client same
        have more : t.toServer ≠ [] := by rwa [same]
        have all : t.toServer.length ≤ 4095 := by rwa [same]
        refine replying _ (command_kept sound kept reading more all moment) ?_ ?_ ?_
        all_goals simp only [step,serverReads,reading,if_neg more]
        · exact client
        · exact List.drop_eq_nil_of_le all
        · exact fun gone => by cases gone
      have reading : s.serving = .reading → ∃ events, (∀ event ∈ events, Unaided moment event) ∧
          Replying (Machine.run (step p) s events) :=
        fun reading => ⟨[.serverReads moment],by simp [Unaided.serves],read s kept reading rfl rfl⟩
      rcases after with gone | writing | ⟨_,own⟩
      · exact absurd gone alive
      · have round : step p s (.serverReads moment) = {s with serving := .reading} := by
          have written : s.toClient.written = true := by rw [toClient]; rfl
          simp only [step,serverReads,writing,written,if_true]
        have next := step_kept sound kept (.serverReads moment) (fun reading => by cases writing.symm.trans reading)
        refine ⟨[.serverReads moment,.serverReads moment],by simp [Unaided.serves],?_⟩
        rw [Machine.run_cons,Machine.run_cons,Machine.run_nil]
        rw [round] at next ⊢
        exact read _ next rfl rfl rfl
      · exact reading own
  | greeted client toServer => exact absurd toServer pending
  | banner left client toServer => exact absurd toServer pending
  | retval line retval client toServer => exact absurd toServer pending
  | length line retval client toServer => exact absurd toServer pending
  | body line retval left shown client toServer => exact absurd toServer pending

-- Nobody waits for ever: the two processes can always come to the end of a reply.
theorem waiting_answered (sound : Sound p bpSize) (kept : Kept p bpSize initial s) (alive : s.serving ≠ .gone)
    (waits : s.client.waits = true) (whole : s.toServer.length ≤ 4095) (moment : Moment) :
    ∃ events, (∀ event ∈ events, Unaided moment event) ∧ (Machine.run (step p) s events).client.ready = true := by
  by_cases pending : s.toServer = []
  · obtain ⟨owed,sent,due,linked,_⟩ := kept.linked
    exact replying_answered moment ⟨⟨owed,sent,due,linked⟩,waits,pending,alive⟩
  · obtain ⟨first,own,replying⟩ := requesting_served sound kept alive waits pending whole moment
    obtain ⟨second,own',ready⟩ := replying_answered moment replying
    refine ⟨first ++ second,?_,by rw [Machine.run_append]; exact ready⟩
    intro event member
    exact (List.mem_append.mp member).elim (own event) (own' event)

end

end TcpProxy.CommandLine
