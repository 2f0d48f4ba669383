import TcpProxy.CommandLine.Session

namespace TcpProxy.CommandLine
open PieceStream

variable {World Moment Change : Type} (p : Program World Moment Change)

def Whole (s : Session World Moment Change) : Event Moment Change → Prop
  | .serverReads _ => s.serving = .reading → s.toServer.length ≤ 4095
  | _ => True

-- What the client has been told is what the same lines do without a connection,
-- in their order and on the same daemon. Only the last of them may be on its way.
structure Agreement (bpSize : Nat) (initial : World) (s : Session World Moment Change) : Prop where
  world : s.world = Machine.run (act p) initial s.executed
  executed : s.executed.filterMap commandLine <+: s.entered
  all : s.entered.length ≤ (s.executed.filterMap commandLine).length+1
  replied : s.replies <+: Machine.trace (act p) (answer p bpSize) initial s.executed
  prompt : s.client = .prompt →
    s.executed.filterMap commandLine = s.entered ∧
      s.replies = Machine.trace (act p) (answer p bpSize) initial s.executed ∧ s.toServer = [] ∧ s.toClient = empty
  lost : s.client = .lost → s.serving = .gone
  clear : s.client ≠ .confused

-- What the clients put on the terminal, one after the other: the login's text for
-- each of them and the output of each line, to the last byte that has come.
structure Display (bpSize : Nat) (initial : World) (s : Session World Moment Change) : Prop where
  shown : s.shown <+: (Machine.trace (act p) (message p bpSize) initial s.executed).flatten
  prompt : s.client = .prompt → s.shown = (Machine.trace (act p) (message p bpSize) initial s.executed).flatten

-- What the two processes are relied on for. No line that is sent is empty, and
-- an int holds what a command returns and the length of what it prints. Only a
-- command that returns 0 ends the daemon.
structure Sound (bpSize : Nat) : Prop where
  sends : ∀ typed line, p.enter typed = .sends line → line ≠ []
  greets : (printAll ⟨bpSize,[]⟩ p.greet).bpIndex < 2^31
  prints : ∀ moment world line, line.length ≤ 4095 →
    (printAll ⟨bpSize,[]⟩ (p.execute moment world line).2.1).bpIndex < 2^31
  returns : ∀ moment world line, -2^31 ≤ (p.execute moment world line).2.2 ∧ (p.execute moment world line).2.2 < 2^31
  terminates : ∀ moment world line, p.terminate world = false → p.terminate (p.execute moment world line).1 = true →
    (p.execute moment world line).2.2 = 0
  others : ∀ change world, p.terminate (p.other change world) = p.terminate world

def After (s : Session World Moment Change) (on : Bool) : Prop :=
  s.serving = .gone ∨ s.serving = .writing on ∨
    s.toClient.written = true ∧ if on then s.serving = .reading else s.serving = .accepting ∨ s.serving = .stopped

-- What is between the two: the reply that the client has not read to its end,
-- the line that the server has not read, and the text that is not shown yet.
inductive Linked (s : Session World Moment Change) : List Reply → List Text → Text → Prop where
  | away (client : s.client = .away) (toServer : s.toServer = []) (toClient : s.toClient = empty)
      (serving : s.serving ≠ .greeting) : Linked s [] [] []
  | lost {owed : List Reply} {sent : List Text} {due : Text} (client : s.client = .lost) (serving : s.serving = .gone)
      (one : owed.length+sent.length ≤ 1) : Linked s owed sent due
  | connected (client : s.client = .greeted) (pid : Int) (toServer : s.toServer = intBytes pid) (toClient : s.toClient = empty)
      (serving : s.serving = .greeting ∨ s.serving = .gone) : Linked s [] [] []
  | greeted {text : Text} (client : s.client = .greeted) (toServer : s.toServer = []) (short : text.length < 2^31)
      (carries : Carries s.toClient [intBytes text.length] text) (after : After s true) : Linked s [] [] text
  | banner {text : Text} (left : Int) (client : s.client = .banner left) (toServer : s.toServer = [])
      (length : left = text.length) (nonempty : text ≠ []) (carries : Carries s.toClient [] text) (after : After s true) :
      Linked s [] [] text
  | prompt (client : s.client = .prompt) (toServer : s.toServer = []) (toClient : s.toClient = empty)
      (after : After s true) : Linked s [] [] []
  | sent (line : Text) (client : s.client = .retval line) (toServer : s.toServer = line) (nonempty : line ≠ [])
      (toClient : s.toClient = empty) (after : After s true) : Linked s [] [line] []
  | retval {output : Text} (line : Text) (retval : Int) (client : s.client = .retval line) (toServer : s.toServer = [])
      (low : -2^31 ≤ retval) (high : retval < 2^31) (short : output.length < 2^31)
      (carries : Carries s.toClient [intBytes retval,intBytes output.length] output)
      (after : After s (decide (retval ≠ 0))) : Linked s [⟨line,retval,output⟩] [] output
  | length {output : Text} (line : Text) (retval : Int) (client : s.client = .length line retval) (toServer : s.toServer = [])
      (short : output.length < 2^31) (carries : Carries s.toClient [intBytes output.length] output)
      (after : After s (decide (retval ≠ 0))) : Linked s [⟨line,retval,output⟩] [] output
  | body {rest : Text} (line : Text) (retval left : Int) (shown : Text) (client : s.client = .body line retval left shown)
      (toServer : s.toServer = []) (length : left = rest.length) (nonempty : rest ≠ []) (carries : Carries s.toClient [] rest)
      (after : After s (decide (retval ≠ 0))) : Linked s [⟨line,retval,shown ++ rest⟩] [] rest

def Serving.live : Serving → Bool
  | .greeting | .reading | .writing true => true
  | _ => false

structure Kept (bpSize : Nat) (initial : World) (s : Session World Moment Change) : Prop where
  world : s.world = Machine.run (act p) initial s.executed
  bp : s.bp = ⟨bpSize,[]⟩
  live : s.serving.live = true → p.terminate s.world = false
  linked : ∃ owed sent due, Linked s owed sent due ∧
    s.replies ++ owed = Machine.trace (act p) (answer p bpSize) initial s.executed ∧
    s.executed.filterMap commandLine ++ sent = s.entered ∧
    s.shown ++ due = (Machine.trace (act p) (message p bpSize) initial s.executed).flatten

@[simp] theorem intBytes_length (n : Int) : (intBytes n).length = 4 := by simp [intBytes]

theorem intBytes_ne_nil (n : Int) : intBytes n ≠ [] := by
  intro nothing
  have length := intBytes_length n
  rw [nothing] at length
  cases length

theorem readInt_intBytes (low : -2^31 ≤ n) (high : n < 2^31) : readInt (intBytes n) = some n := by
  have loaded : LittleEndian.load (fun i => (intBytes n).getD i 0) 4 =
      LittleEndian.load (LittleEndian.store (fun _ => 0) 4 n) 4 := by
    simp [LittleEndian.load,intBytes]
  have read : LittleEndian.loadSigned (fun i => (intBytes n).getD i 0) 4 = n := by
    have stored := LittleEndian.loadSigned_store (fun _ => 0) n (Nat.le_refl 4)
    rw [LittleEndian.loadSigned] at stored ⊢
    rw [loaded,stored]
    exact toInt32_eq low high
  rw [readInt,if_pos (intBytes_length n),read]

theorem readInt_length {text : Text} (short : text.length < 2^31) : readInt (intBytes text.length) = some (text.length : Int) :=
  readInt_intBytes (by omega) (by omega)

variable {c : Channel UInt8} {pieces : List Text} {body : Text} {s : Session World Moment Change}

theorem read_int (carries : Carries c (intBytes n :: pieces) body) (arrived : c.wire ≠ []) :
    (c.read 4).1 = intBytes n ∧ Carries (c.read 4).2 pieces body := by
  have piece := read_piece carries arrived
  rwa [intBytes_length] at piece

-- Only a process that is gone leaves the reader without what it waits for.
theorem waits (carries : Carries c pieces body) (more : pieces.flatten ++ body ≠ []) (channel : s.toClient = c)
    (after : After s on) (nothing : c.wire = []) : s.serving.closed = true → s.serving = .gone := by
  intro closed
  rcases after with gone | writing | ⟨written,rest⟩
  · exact gone
  · rw [writing] at closed
    cases closed
  · rw [channel] at written
    exact absurd ((carries_written carries written).symm.trans nothing) more

theorem after_closed (after : After s true) (closed : s.serving.closed = true) : s.serving = .gone := by
  rcases after with gone | writing | ⟨_,reading⟩
  · exact gone
  · rw [writing] at closed
    cases closed
  · rw [if_pos rfl] at reading
    rw [reading] at closed
    cases closed

theorem clientReads_frame (s : Session World Moment Change) : ∃ client toServer toClient shown replies,
    clientReads s =
      {s with client := client,toServer := toServer,toClient := toClient,shown := shown,replies := replies} := by
  unfold clientReads showChunk finish blocked
  repeat' split
  all_goals exact ⟨_,_,_,_,_,rfl⟩

theorem finish_linked (retval : Int) (toServer : s.toServer = []) (carries : Carries s.toClient [] [])
    (after : After s (decide (retval ≠ 0))) (line shown : Text) :
    Linked (finish s line retval shown) [] [] [] ∧
      (finish s line retval shown).replies = s.replies ++ [⟨line,retval,shown⟩] ∧
      (finish s line retval shown).shown = s.shown := by
  unfold finish
  by_cases last : retval = 0
  · rw [if_pos last]
    refine ⟨.away rfl rfl rfl ?_,rfl,rfl⟩
    rcases after with gone | writing | ⟨_,closed⟩
    · exact fun greeting => by cases gone.symm.trans greeting
    · exact fun greeting => by cases writing.symm.trans greeting
    · rw [if_neg (by simp [last])] at closed
      rcases closed with accepting | stopped
      · exact fun greeting => by cases accepting.symm.trans greeting
      · exact fun greeting => by cases stopped.symm.trans greeting
  · rw [if_neg last]
    have on : decide (retval ≠ 0) = true := by simp [last]
    rw [on] at after
    exact ⟨.prompt rfl toServer (carries_nil carries) after,rfl,rfl⟩

theorem blocked_linked (gone : s.serving.closed = true → s.serving = .gone) (linked : Linked s owed sent due)
    (one : owed.length+sent.length ≤ 1) :
    Linked (blocked s) owed sent due ∧ (blocked s).replies = s.replies ∧ (blocked s).shown = s.shown := by
  unfold blocked
  by_cases closed : s.serving.closed = true
  · rw [if_pos closed]
    refine ⟨?_,rfl,rfl⟩
    exact .lost rfl (gone closed) one
  · rw [if_neg closed]
    exact ⟨linked,rfl,rfl⟩

theorem showChunk_linked {rest : Text} (retval : Int) (toServer : s.toServer = []) (carries : Carries s.toClient [] rest)
    (after : After s (decide (retval ≠ 0))) (line shown : Text) :
    ∃ owed, Linked (showChunk s line retval rest.length shown) owed [] rest ∧
      (showChunk s line retval rest.length shown).replies ++ owed = s.replies ++ [⟨line,retval,shown ++ rest⟩] ∧
      (showChunk s line retval rest.length shown).shown = s.shown := by
  unfold showChunk
  by_cases more : (0 : Int) < rest.length
  · rw [if_pos more]
    have nonempty : rest ≠ [] := List.ne_nil_of_length_pos (by omega)
    exact ⟨_,.body line retval rest.length shown rfl toServer rfl nonempty carries after,rfl,rfl⟩
  · obtain rfl : rest = [] := List.eq_nil_of_length_eq_zero (by omega)
    rw [if_neg more,List.append_nil]
    obtain ⟨linked,replies,same⟩ := finish_linked retval toServer carries after line shown
    exact ⟨[],linked,by rw [replies,List.append_nil],same⟩

theorem left_length {got rest body : Text} (whole : got ++ rest = body) : (body.length : Int)-got.length = rest.length := by
  have length := congrArg List.length whole
  rw [List.length_append] at length
  omega

def Takes (s next : Session World Moment Change) (owed : List Reply) (sent : List Text) (due : Text) : Prop :=
  ∃ owed' due', Linked next owed' sent due' ∧ next.replies ++ owed' = s.replies ++ owed ∧ next.shown ++ due' = s.shown ++ due

theorem clientReads_linked (linked : Linked s owed sent due) : Takes s (clientReads s) owed sent due := by
  have quiet : Linked s owed sent due → clientReads s = s → Takes s (clientReads s) owed sent due := by
    intro linked same
    rw [same]
    exact ⟨owed,due,linked,rfl,rfl⟩
  have wait : clientReads s = blocked s → (s.serving.closed = true → s.serving = .gone) → owed.length+sent.length ≤ 1 →
      Takes s (clientReads s) owed sent due := by
    intro same gone one
    obtain ⟨waiting,replies,shown⟩ := blocked_linked gone linked one
    rw [same]
    exact ⟨owed,due,waiting,by rw [replies],by rw [shown]⟩
  cases linked with
  | away client toServer toClient serving => exact quiet (.away client toServer toClient serving) (by simp only [clientReads,client])
  | lost client serving one => exact quiet (.lost client serving one) (by simp only [clientReads,client])
  | prompt client toServer toClient after => exact quiet (.prompt client toServer toClient after) (by simp only [clientReads,client])
  | connected client pid toServer toClient serving =>
      refine wait (by simp only [clientReads,client,toClient,empty,if_true]) ?_ (by simp)
      intro closed
      rcases serving with greeting | gone
      · rw [greeting] at closed
        cases closed
      · exact gone
  | sent line client toServer nonempty toClient after =>
      exact wait (by simp only [clientReads,client,toClient,empty,if_true]) (after_closed after) (by simp)
  | greeted client toServer short carries after =>
      by_cases nothing : s.toClient.wire = []
      · exact wait (by simp only [clientReads,client,if_pos nothing])
          (waits carries (by simp [intBytes_ne_nil]) rfl after nothing) (by simp)
      · obtain ⟨got,behind⟩ := read_int carries nothing
        have read : clientReads s = {received s 4 with client := if (0 : Int) < due.length then .banner due.length else .prompt} := by
          simp only [clientReads,client,if_neg nothing,got,readInt_length short]
        rw [read]
        by_cases more : (0 : Int) < due.length
        · rw [if_pos more]
          exact ⟨[],due,.banner due.length rfl toServer rfl (List.ne_nil_of_length_pos (by omega)) behind after,rfl,rfl⟩
        · obtain rfl : due = [] := List.eq_nil_of_length_eq_zero (by omega)
          rw [if_neg more]
          exact ⟨[],[],.prompt rfl toServer (carries_nil behind) after,rfl,rfl⟩
  | banner left client toServer length nonempty carries after =>
      by_cases nothing : s.toClient.wire = []
      · exact wait (by simp only [clientReads,client,if_pos nothing])
          (waits carries (by simpa using nonempty) rfl after nothing) (by simp)
      · obtain ⟨rest,whole,behind⟩ := read_body carries left.toNat
        have count := left_length whole
        rw [← length] at count
        have read : clientReads s = {displayed s left.toNat with
            client := if (0 : Int) < rest.length then .banner rest.length else .prompt} := by
          simp only [clientReads,client,if_neg nothing,count]
        rw [read]
        by_cases more : (0 : Int) < rest.length
        · rw [if_pos more]
          refine ⟨[],rest,.banner rest.length rfl toServer rfl (List.ne_nil_of_length_pos (by omega)) behind after,rfl,?_⟩
          rw [← whole]
          exact List.append_assoc _ _ _
        · obtain rfl : rest = [] := List.eq_nil_of_length_eq_zero (by omega)
          rw [if_neg more]
          refine ⟨[],[],.prompt rfl toServer (carries_nil behind) after,rfl,?_⟩
          rw [← whole]
          exact List.append_assoc _ _ _
  | retval line retval client toServer low high short carries after =>
      by_cases nothing : s.toClient.wire = []
      · exact wait (by simp only [clientReads,client,if_pos nothing])
          (waits carries (by simp [intBytes_ne_nil]) rfl after nothing) (by simp)
      · obtain ⟨got,behind⟩ := read_int carries nothing
        have read : clientReads s = {received s 4 with client := .length line retval} := by
          simp only [clientReads,client,if_neg nothing,got,readInt_intBytes low high]
        rw [read]
        exact ⟨_,due,.length line retval rfl toServer short behind after,rfl,rfl⟩
  | length line retval client toServer short carries after =>
      by_cases nothing : s.toClient.wire = []
      · exact wait (by simp only [clientReads,client,if_pos nothing])
          (waits carries (by simp [intBytes_ne_nil]) rfl after nothing) (by simp)
      · obtain ⟨got,behind⟩ := read_int carries nothing
        have read : clientReads s = showChunk (received s 4) line retval due.length [] := by
          simp only [clientReads,client,if_neg nothing,got,readInt_length short]
        rw [read]
        obtain ⟨owed',linked',replies,shown⟩ := showChunk_linked (s := received s 4) retval toServer behind after line []
        exact ⟨owed',due,linked',replies,by rw [shown]⟩
  | body line retval left shown client toServer length nonempty carries after =>
      by_cases nothing : s.toClient.wire = []
      · exact wait (by simp only [clientReads,client,if_pos nothing])
          (waits carries (by simpa using nonempty) rfl after nothing) (by simp)
      · obtain ⟨rest',whole,behind⟩ := read_body carries (min 1023 left.toNat)
        have count := left_length whole
        rw [← length] at count
        have read : clientReads s = showChunk (displayed s (min 1023 left.toNat)) line retval rest'.length
            (shown ++ (s.toClient.read (min 1023 left.toNat)).1) := by
          simp only [clientReads,client,if_neg nothing,count]
        rw [read,← whole,← List.append_assoc]
        obtain ⟨owed',linked',replies,same⟩ := showChunk_linked (s := displayed s (min 1023 left.toNat)) retval toServer
          behind after line (shown ++ (s.toClient.read (min 1023 left.toNat)).1)
        refine ⟨owed',rest',linked',replies,?_⟩
        rw [same]
        exact List.append_assoc _ _ _

theorem after_writing (after : After s on) (writing : s.serving = .writing on') : on' = on := by
  rcases after with gone | own | ⟨_,further⟩
  · cases gone.symm.trans writing
  · cases own.symm.trans writing
    rfl
  · cases on
    · rw [if_neg (by decide)] at further
      rcases further with accepting | stopped
      · cases accepting.symm.trans writing
      · cases stopped.symm.trans writing
    · cases further.symm.trans writing

theorem linked_serving (linked : Linked s owed sent due) (serving : Serving)
    (after : ∀ on, After s on → After {s with serving := serving} on) (gone : s.serving = .gone → serving = .gone)
    (greeting : s.serving = .greeting → serving = .greeting ∨ serving = .gone)
    (apart : s.serving ≠ .greeting → serving ≠ .greeting) : Linked {s with serving := serving} owed sent due := by
  cases linked with
  | away client toServer toClient own => exact .away client toServer toClient (apart own)
  | lost client own one => exact .lost client (gone own) one
  | connected client pid toServer toClient own =>
      refine .connected client pid toServer toClient ?_
      rcases own with own | own
      · exact greeting own
      · exact .inr (gone own)
  | greeted client toServer short carries own => exact .greeted client toServer short carries (after _ own)
  | banner left client toServer length nonempty carries own =>
      exact .banner left client toServer length nonempty carries (after _ own)
  | prompt client toServer toClient own => exact .prompt client toServer toClient (after _ own)
  | sent line client toServer nonempty toClient own => exact .sent line client toServer nonempty toClient (after _ own)
  | retval line retval client toServer low high short carries own =>
      exact .retval line retval client toServer low high short carries (after _ own)
  | length line retval client toServer short carries own =>
      exact .length line retval client toServer short carries (after _ own)
  | body line retval left shown client toServer length nonempty carries own =>
      exact .body line retval left shown client toServer length nonempty carries (after _ own)

theorem exits_linked (linked : Linked s owed sent due) : Linked {s with serving := .gone} owed sent due :=
  linked_serving linked .gone (fun _ _ => .inl rfl) (fun _ => rfl) (fun _ => .inr rfl) (fun _ gone => by cases gone)

theorem stops_linked (linked : Linked s owed sent due) (accepting : s.serving = .accepting) :
    Linked {s with serving := .stopped} owed sent due := by
  refine linked_serving linked .stopped ?_ (fun gone => by cases accepting.symm.trans gone)
    (fun greeting => by cases accepting.symm.trans greeting) (fun _ stopped => by cases stopped)
  rintro on (gone | writing | ⟨written,further⟩)
  · cases accepting.symm.trans gone
  · cases accepting.symm.trans writing
  · cases on
    · exact .inr (.inr ⟨written,.inr rfl⟩)
    · cases accepting.symm.trans further

theorem written_linked (linked : Linked s owed sent due) (writing : s.serving = .writing on) (written : s.toClient.written = true)
    (serving : Serving) (further : if on then serving = .reading else serving = .accepting ∨ serving = .stopped) :
    Linked {s with serving := serving} owed sent due := by
  have apart : serving ≠ .greeting := by
    rintro rfl
    cases on
    · rcases further with further | further <;> cases further
    · cases further
  refine linked_serving linked serving (fun on' after => ?_) (fun gone => by cases writing.symm.trans gone)
    (fun greeting => by cases writing.symm.trans greeting) (fun _ => apart)
  obtain rfl := after_writing after writing
  exact .inr (.inr ⟨written,further⟩)

theorem serverWrites_linked (linked : Linked s owed sent due) (n : Nat) : Linked (serverWrites s n) owed sent due := by
  unfold serverWrites
  split
  · next on writing =>
      have still : (empty : Channel UInt8).write (n+1) = empty := rfl
      have same : ∀ on', After s on' → After {s with toClient := s.toClient.write (n+1)} on' := by
        intro on' after
        obtain rfl := after_writing after writing
        exact .inr (.inl writing)
      cases linked with
      | away client toServer toClient own => exact .away client toServer (by simp only [toClient,still]) own
      | lost client own => cases writing.symm.trans own
      | connected client pid toServer toClient own => exact .connected client pid toServer (by simp only [toClient,still]) own
      | greeted client toServer short carries own =>
          exact .greeted client toServer short (write_carries carries _) (same _ own)
      | banner left client toServer length nonempty carries own =>
          exact .banner left client toServer length nonempty (write_carries carries _) (same _ own)
      | prompt client toServer toClient own => exact .prompt client toServer (by simp only [toClient,still]) (same _ own)
      | sent line client toServer nonempty toClient own =>
          exact .sent line client toServer nonempty (by simp only [toClient,still]) (same _ own)
      | retval line retval client toServer low high short carries own =>
          exact .retval line retval client toServer low high short (write_carries carries _) (same _ own)
      | length line retval client toServer short carries own =>
          exact .length line retval client toServer short (write_carries carries _) (same _ own)
      | body line retval left shown client toServer length nonempty carries own =>
          exact .body line retval left shown client toServer length nonempty (write_carries carries _) (same _ own)
  · exact linked

theorem linked_reading (linked : Linked s owed sent due) (reading : s.serving = .reading) (pending : s.toServer ≠ []) :
    owed = [] ∧ sent = [s.toServer] ∧ due = [] ∧ s.client = .retval s.toServer ∧ s.toClient = empty := by
  cases linked with
  | away client toServer toClient own => exact absurd toServer pending
  | lost client own one => cases reading.symm.trans own
  | connected client pid toServer toClient own => rcases own with own | own <;> cases reading.symm.trans own
  | greeted client toServer => exact absurd toServer pending
  | banner left client toServer => exact absurd toServer pending
  | prompt client toServer => exact absurd toServer pending
  | sent line client toServer nonempty toClient own => exact ⟨rfl,by rw [toServer],rfl,by rw [toServer,client],toClient⟩
  | retval line retval client toServer => exact absurd toServer pending
  | length line retval client toServer => exact absurd toServer pending
  | body line retval left shown client toServer => exact absurd toServer pending

theorem linked_greeting (linked : Linked s owed sent due) (greeting : s.serving = .greeting) :
    owed = [] ∧ sent = [] ∧ due = [] ∧ s.client = .greeted ∧ s.toServer.length = 4 ∧ s.toClient = empty := by
  have before : ∀ on, ¬ After s on := by
    rintro on (gone | writing | ⟨_,further⟩)
    · cases greeting.symm.trans gone
    · cases greeting.symm.trans writing
    · cases on
      · rcases further with further | further <;> cases greeting.symm.trans further
      · cases greeting.symm.trans further
  cases linked with
  | away client toServer toClient own => exact absurd greeting own
  | lost client own one => cases greeting.symm.trans own
  | connected client pid toServer toClient own => exact ⟨rfl,rfl,rfl,client,by rw [toServer,intBytes_length],toClient⟩
  | greeted client toServer short carries own => exact absurd own (before _)
  | banner left client toServer length nonempty carries own => exact absurd own (before _)
  | prompt client toServer toClient own => exact absurd own (before _)
  | sent line client toServer nonempty toClient own => exact absurd own (before _)
  | retval line retval client toServer low high short carries own => exact absurd own (before _)
  | length line retval client toServer short carries own => exact absurd own (before _)
  | body line retval left shown client toServer length nonempty carries own => exact absurd own (before _)

theorem linked_away (linked : Linked s owed sent due) (away : s.client = .away) :
    owed = [] ∧ sent = [] ∧ due = [] ∧ s.toServer = [] ∧ s.toClient = empty := by
  cases linked with
  | away client toServer toClient own => exact ⟨rfl,rfl,rfl,toServer,toClient⟩
  | lost client => cases away.symm.trans client
  | connected client => cases away.symm.trans client
  | greeted client => cases away.symm.trans client
  | banner left client => cases away.symm.trans client
  | prompt client => cases away.symm.trans client
  | sent line client => cases away.symm.trans client
  | retval line retval client => cases away.symm.trans client
  | length line retval client => cases away.symm.trans client
  | body line retval left shown client => cases away.symm.trans client

theorem printAll_bpSize (o : Output) (texts : List Text) : (printAll o texts).bpSize = o.bpSize := by
  rw [printAll_taken]

variable {p} {bpSize : Nat} {initial : World}

theorem bpinit_kept (kept : Kept p bpSize initial s) (texts : List Text) : bpinit (printAll s.bp texts) = ⟨bpSize,[]⟩ := by
  rw [bpinit,printAll_bpSize,kept.bp]

theorem command_kept (sound : Sound p bpSize) (kept : Kept p bpSize initial s) (reading : s.serving = .reading)
    (pending : s.toServer ≠ []) (whole : s.toServer.length ≤ 4095) (moment : Moment) :
    Kept p bpSize initial (serverReads p s moment) := by
  obtain ⟨owed,sent,due,linked,replied,lines,shown⟩ := kept.linked
  obtain ⟨rfl,rfl,rfl,client,toClient⟩ := linked_reading linked reading pending
  have all : s.toServer.take 4095 = s.toServer := List.take_of_length_le whole
  have taken : s.toServer.drop 4095 = [] := List.drop_eq_nil_of_le whole
  have lives := kept.live (by rw [reading]; rfl)
  obtain ⟨low,high⟩ := sound.returns moment s.world s.toServer
  have short := sound.prints moment s.world s.toServer whole
  have ends := sound.terminates moment s.world s.toServer lives
  rw [serverReads,reading]
  simp only [if_neg pending,all,taken]
  refine ⟨?_,bpinit_kept kept _,?_,?_⟩
  · simp only [Machine.run_concat,← kept.world]
    rfl
  · intro live
    cases terminate : p.terminate (p.execute moment s.world s.toServer).1 with
    | false => rfl
    | true =>
        simp only [terminate,Bool.not_true,Bool.and_false] at live
        cases live
  · refine ⟨[⟨s.toServer,(p.execute moment s.world s.toServer).2.2,(printAll s.bp (p.execute moment s.world s.toServer).2.1).bpBuffer⟩],
      [],(printAll s.bp (p.execute moment s.world s.toServer).2.1).bpBuffer,?_,?_,?_,?_⟩
    · refine .retval s.toServer _ client rfl low high (by rw [kept.bp]; exact short) ?_ (.inr (.inl ?_))
      · rw [toClient]
        exact carries_start _ _
      · cases terminate : p.terminate (p.execute moment s.world s.toServer).1 with
        | false => simp only [Bool.not_false,Bool.and_true]
        | true => simp only [ends terminate,Bool.not_true,Bool.and_false,ne_eq,not_true_eq_false,decide_false]
    · rw [List.append_nil] at replied
      simp only [Machine.trace_concat,← kept.world,← replied,kept.bp]
      rfl
    · rw [← lines,List.filterMap_append,List.append_nil]
      rfl
    · rw [List.append_nil] at shown
      simp only [Machine.trace_concat,← kept.world,shown,kept.bp,List.flatten_append]
      simp [message]

theorem greeting_kept (sound : Sound p bpSize) (kept : Kept p bpSize initial s) (greeting : s.serving = .greeting)
    (moment : Moment) : Kept p bpSize initial (serverReads p s moment) := by
  obtain ⟨owed,sent,due,linked,replied,lines,shown⟩ := kept.linked
  obtain ⟨rfl,rfl,rfl,client,four,toClient⟩ := linked_greeting linked greeting
  have pending : s.toServer ≠ [] := by
    intro nothing
    rw [nothing] at four
    cases four
  have taken : s.toServer.drop 4 = [] := List.drop_eq_nil_of_le (by omega)
  have lives := kept.live (by rw [greeting]; rfl)
  have short := sound.greets
  rw [serverReads,greeting]
  simp only [if_neg pending,taken,lives]
  refine ⟨?_,bpinit_kept kept _,fun _ => lives,[],[],(printAll s.bp p.greet).bpBuffer,?_,?_,?_,?_⟩
  · simp only [Machine.run_concat,← kept.world]
    rfl
  · refine .greeted client rfl (by rw [kept.bp]; exact short) ?_ (.inr (.inl rfl))
    rw [toClient]
    exact carries_start _ _
  · simp only [Machine.trace_concat,answer,Option.toList_none,List.append_nil] at replied ⊢
    exact replied
  · rw [List.append_nil] at lines ⊢
    rw [← lines,List.filterMap_append]
    exact List.append_nil _
  · rw [List.append_nil] at shown
    simp only [Machine.trace_concat,shown,kept.bp,List.flatten_append]
    simp [message]

theorem Kept.serving (kept : Kept p bpSize initial s) (serving : Serving)
    (live : serving.live = true → p.terminate s.world = false)
    (linked : ∀ owed sent due, Linked s owed sent due → Linked {s with serving := serving} owed sent due) :
    Kept p bpSize initial {s with serving := serving} := by
  obtain ⟨owed,sent,due,own,rest⟩ := kept.linked
  exact ⟨kept.world,kept.bp,live,owed,sent,due,linked owed sent due own,rest⟩

theorem endSession_kept (kept : Kept p bpSize initial s)
    (linked : ∀ serving, serving = .accepting ∨ serving = .stopped → ∀ owed sent due, Linked s owed sent due →
      Linked {s with serving := serving} owed sent due) : Kept p bpSize initial (endSession p s) := by
  unfold endSession
  split
  · exact kept.serving .stopped (fun live => by cases live) (linked _ (.inr rfl))
  · exact kept.serving .accepting (fun live => by cases live) (linked _ (.inl rfl))

theorem serverReads_kept (sound : Sound p bpSize) (kept : Kept p bpSize initial s) (moment : Moment)
    (whole : s.serving = .reading → s.toServer.length ≤ 4095) : Kept p bpSize initial (serverReads p s moment) := by
  cases serving : s.serving with
  | accepting =>
      simp only [serverReads,serving]
      split
      · exact kept.serving .stopped (fun live => by cases live) (fun _ _ _ linked => stops_linked linked serving)
      · exact kept
  | greeting => exact greeting_kept sound kept serving moment
  | reading =>
      by_cases pending : s.toServer = []
      · simp only [serverReads,serving,if_pos pending]
        split
        · next away =>
            refine endSession_kept kept fun serving further owed sent due linked => ?_
            obtain ⟨rfl,rfl,rfl,toServer,toClient⟩ := linked_away linked away
            exact .away away toServer toClient (by rcases further with rfl | rfl <;> exact fun same => by cases same)
        · exact kept
      · exact command_kept sound kept serving pending (whole serving) moment
  | writing on =>
      simp only [serverReads,serving]
      split
      · next written =>
          cases on with
          | true =>
              rw [if_pos rfl]
              exact kept.serving .reading (fun _ => kept.live (by rw [serving]; rfl))
                (fun _ _ _ linked => written_linked linked serving written .reading rfl)
          | false =>
              rw [if_neg (by decide)]
              exact endSession_kept kept fun next further _ _ _ linked => written_linked linked serving written next further
      · exact kept
  | stopped =>
      simp only [serverReads,serving]
      exact kept
  | gone =>
      simp only [serverReads,serving]
      exact kept

theorem clientReads_kept (kept : Kept p bpSize initial s) : Kept p bpSize initial (clientReads s) := by
  obtain ⟨owed,sent,due,linked,replied,lines,shown⟩ := kept.linked
  obtain ⟨owed',due',linked',replies,text⟩ := clientReads_linked linked
  obtain ⟨client,toServer,toClient,_,_,same⟩ := clientReads_frame s
  rw [same] at linked' replies text ⊢
  exact ⟨kept.world,kept.bp,kept.live,owed',sent,due',linked',replies.trans replied,lines,text.trans shown⟩

theorem connects_kept (kept : Kept p bpSize initial s) (pid : Int) : Kept p bpSize initial (step p s (.connects pid)) := by
  simp only [step]
  split
  · next free =>
      obtain ⟨away,accepting,lives⟩ := free
      obtain ⟨owed,sent,due,linked,replied,lines,shown⟩ := kept.linked
      obtain ⟨rfl,rfl,rfl,_,toClient⟩ := linked_away linked away
      exact ⟨kept.world,kept.bp,fun _ => lives,[],[],[],.connected rfl pid rfl toClient (.inl rfl),replied,lines,shown⟩
  · exact kept

theorem linked_prompt (linked : Linked s owed sent due) (prompt : s.client = .prompt) :
    owed = [] ∧ sent = [] ∧ due = [] ∧ s.toServer = [] ∧ s.toClient = empty ∧ After s true := by
  cases linked with
  | away client => cases prompt.symm.trans client
  | lost client => cases prompt.symm.trans client
  | connected client => cases prompt.symm.trans client
  | greeted client => cases prompt.symm.trans client
  | banner left client => cases prompt.symm.trans client
  | prompt client toServer toClient after => exact ⟨rfl,rfl,rfl,toServer,toClient,after⟩
  | sent line client => cases prompt.symm.trans client
  | retval line retval client => cases prompt.symm.trans client
  | length line retval client => cases prompt.symm.trans client
  | body line retval left shown client => cases prompt.symm.trans client

theorem enters_kept (sound : Sound p bpSize) (kept : Kept p bpSize initial s) (typed : Text) :
    Kept p bpSize initial (step p s (.enters typed)) := by
  by_cases prompt : s.client = .prompt
  · obtain ⟨owed,sent,due,linked,replied,lines,shown⟩ := kept.linked
    obtain ⟨rfl,rfl,rfl,toServer,toClient,after⟩ := linked_prompt linked prompt
    simp only [step,prompt]
    split
    · next line sends =>
        split
        · next closed =>
            refine ⟨kept.world,kept.bp,kept.live,[],[],[],?_,replied,lines,shown⟩
            exact .lost rfl (after_closed after closed) (Nat.zero_le _)
        · refine ⟨kept.world,kept.bp,kept.live,[],[line],[],?_,replied,?_,shown⟩
          · exact .sent line rfl (by rw [toServer]; rfl) (sound.sends typed line sends) toClient after
          · rw [← lines,List.append_nil]
    · exact kept
    · refine ⟨kept.world,kept.bp,kept.live,[],[],[],.away rfl rfl rfl ?_,replied,lines,shown⟩
      rcases after with gone | writing | ⟨_,reading⟩
      · exact fun greeting => by cases gone.symm.trans greeting
      · exact fun greeting => by cases writing.symm.trans greeting
      · exact fun greeting => by cases reading.symm.trans greeting
  · have same : step p s (.enters typed) = s := by
      simp only [step]
    rw [same]
    exact kept

theorem step_kept (sound : Sound p bpSize) (kept : Kept p bpSize initial s) (event : Event Moment Change)
    (whole : Whole s event) : Kept p bpSize initial (step p s event) := by
  cases event with
  | connects pid => exact connects_kept kept pid
  | enters typed => exact enters_kept sound kept typed
  | clientReads => exact clientReads_kept kept
  | serverReads moment => exact serverReads_kept sound kept moment whole
  | serverWrites n =>
      obtain ⟨owed,sent,due,linked,replied,lines,shown⟩ := kept.linked
      have wrote : ∃ toClient, serverWrites s n = {s with toClient := toClient} := by
        unfold serverWrites
        split <;> exact ⟨_,rfl⟩
      have after := serverWrites_linked linked n
      obtain ⟨toClient,same⟩ := wrote
      rw [same] at after
      rw [step,same]
      exact ⟨kept.world,kept.bp,kept.live,owed,sent,due,after,replied,lines,shown⟩
  | elsewhere change =>
      obtain ⟨owed,sent,due,linked,replied,lines,shown⟩ := kept.linked
      refine ⟨?_,kept.bp,fun live => (sound.others change s.world).trans (kept.live live),owed,sent,due,?_,?_,?_,?_⟩
      · simp only [step,Machine.run_concat,← kept.world]
        rfl
      · cases linked with
        | away client toServer toClient own => exact .away client toServer toClient own
        | lost client own one => exact .lost client own one
        | connected client pid toServer toClient own => exact .connected client pid toServer toClient own
        | greeted client toServer short carries own => exact .greeted client toServer short carries own
        | banner left client toServer length nonempty carries own =>
            exact .banner left client toServer length nonempty carries own
        | prompt client toServer toClient own => exact .prompt client toServer toClient own
        | sent line client toServer nonempty toClient own => exact .sent line client toServer nonempty toClient own
        | retval line retval client toServer low high short carries own =>
            exact .retval line retval client toServer low high short carries own
        | length line retval client toServer short carries own =>
            exact .length line retval client toServer short carries own
        | body line retval left shown client toServer length nonempty carries own =>
            exact .body line retval left shown client toServer length nonempty carries own
      · simp only [step,Machine.trace_concat,answer,Option.toList_none,List.append_nil]
        exact replied
      · simp only [step,← lines,List.filterMap_append,List.filterMap_cons,commandLine,List.filterMap_nil,List.append_nil]
      · simp only [step,Machine.trace_concat,message,Option.toList_none,List.append_nil]
        exact shown
  | exits => exact kept.serving .gone (fun live => by cases live) (fun _ _ _ linked => exits_linked linked)

theorem listening_kept (p : Program World Moment Change) (bpSize : Nat) (initial : World) :
    Kept p bpSize initial (listening bpSize initial) :=
  ⟨rfl,rfl,fun live => (by cases live),[],[],[],.away rfl rfl rfl (fun greeting => (by cases greeting)),rfl,rfl,rfl⟩

theorem linked_bounds (linked : Linked s owed sent due) : owed.length+sent.length ≤ 1 ∧ s.client ≠ .confused ∧
    (s.client = .lost → s.serving = .gone) := by
  cases linked with
  | away client => simp [client]
  | lost client own one => exact ⟨one,by simp [client],fun _ => own⟩
  | connected client => simp [client]
  | greeted client => simp [client]
  | banner left client => simp [client]
  | prompt client => simp [client]
  | sent line client => simp [client]
  | retval line retval client => simp [client]
  | length line retval client => simp [client]
  | body line retval left shown client => simp [client]

theorem kept_agreement (kept : Kept p bpSize initial s) : Agreement p bpSize initial s := by
  obtain ⟨owed,sent,due,linked,replied,lines,shown⟩ := kept.linked
  obtain ⟨one,clear,lost⟩ := linked_bounds linked
  refine ⟨kept.world,⟨sent,lines⟩,?_,⟨owed,replied⟩,fun prompt => ?_,lost,clear⟩
  · rw [← lines,List.length_append]
    omega
  · obtain ⟨rfl,rfl,_,toServer,toClient,_⟩ := linked_prompt linked prompt
    exact ⟨by rw [← lines,List.append_nil],by rw [← replied,List.append_nil],toServer,toClient⟩

theorem kept_display (kept : Kept p bpSize initial s) : Display p bpSize initial s := by
  obtain ⟨owed,sent,due,linked,_,_,shown⟩ := kept.linked
  refine ⟨⟨due,shown⟩,fun prompt => ?_⟩
  obtain ⟨_,_,rfl,_⟩ := linked_prompt linked prompt
  rw [← shown,List.append_nil]

theorem agreement_whole (kept : Kept p bpSize initial s) (event : Event Moment Change)
    (agreement : Agreement p bpSize initial (step p s event)) : Whole s event := by
  cases event with
  | serverReads moment =>
      intro reading
      by_contra long
      have pending : s.toServer ≠ [] := by
        intro nothing
        rw [nothing] at long
        exact long (Nat.zero_le _)
      obtain ⟨owed,sent,due,linked,_,lines,_⟩ := kept.linked
      obtain ⟨rfl,rfl,_⟩ := linked_reading linked reading pending
      have executed := agreement.executed
      simp only [step,serverReads,reading,if_neg pending,List.filterMap_append,← lines] at executed
      have cut := (List.prefix_append_right_inj _).mp executed
      simp only [List.filterMap_cons,commandLine,List.filterMap_nil,List.cons_prefix_cons,List.nil_prefix,and_true] at cut
      have length := congrArg List.length cut
      rw [List.length_take] at length
      omega
  | _ => trivial

theorem agreement_iff (sound : Sound p bpSize) (initial : World) (events : List (Event Moment Change)) :
    (∀ earlier later, events = earlier ++ later →
      Agreement p bpSize initial (Machine.run (step p) (listening bpSize initial) earlier)) ↔
    Machine.Along (step p) Whole (listening bpSize initial) events :=
  Machine.exact_condition (Kept p bpSize initial) (listening_kept p bpSize initial)
    (fun _ event kept whole => step_kept sound kept event whole) (fun _ => kept_agreement)
    (fun _ event kept agreement => agreement_whole kept event agreement) events

def Short (p : Program World Moment Change) : Event Moment Change → Prop
  | .enters typed => ∀ line, p.enter typed = .sends line → line.length ≤ 4095
  | _ => True

def Bounded (s : Session World Moment Change) : Prop := ∀ line ∈ s.entered, line.length ≤ 4095

theorem kept_toServer (kept : Kept p bpSize initial s) (bounded : Bounded s) (here : s.client ≠ .lost) :
    s.toServer.length ≤ 4095 := by
  have nothing : s.toServer = [] → s.toServer.length ≤ 4095 := by
    intro taken
    rw [taken]
    exact Nat.zero_le _
  obtain ⟨owed,sent,due,linked,_,lines,_⟩ := kept.linked
  cases linked with
  | away client toServer => exact nothing toServer
  | lost client => exact absurd client here
  | connected client pid toServer =>
      rw [toServer,intBytes_length]
      decide
  | greeted client toServer => exact nothing toServer
  | banner left client toServer => exact nothing toServer
  | prompt client toServer => exact nothing toServer
  | sent line client toServer =>
      rw [toServer]
      exact bounded line (by rw [← lines]; simp)
  | retval line retval client toServer => exact nothing toServer
  | length line retval client toServer => exact nothing toServer
  | body line retval left shown client toServer => exact nothing toServer

theorem step_entered (s : Session World Moment Change) (event : Event Moment Change) : (step p s event).entered = s.entered ∨
    ∃ typed line, event = .enters typed ∧ p.enter typed = .sends line ∧ (step p s event).entered = s.entered ++ [line] := by
  cases event with
  | enters typed =>
      simp only [step]
      split
      · split
        · next line sends =>
            split
            · exact .inl rfl
            · exact .inr ⟨typed,line,rfl,sends,rfl⟩
        · exact .inl rfl
        · exact .inl rfl
      · exact .inl rfl
  | connects pid =>
      simp only [step]
      split <;> exact .inl rfl
  | clientReads =>
      obtain ⟨_,_,_,_,_,same⟩ := clientReads_frame s
      exact .inl (by rw [step,same])
  | serverReads moment =>
      left
      simp only [step,serverReads,endSession]
      repeat' split
      all_goals rfl
  | serverWrites n =>
      left
      simp only [step,serverWrites]
      split <;> rfl
  | elsewhere change => exact .inl rfl
  | exits => exact .inl rfl

theorem step_bounded (bounded : Bounded s) (event : Event Moment Change) (short : Short p event) : Bounded (step p s event) := by
  rcases step_entered s event with same | ⟨typed,line,rfl,sends,same⟩
  · rw [Bounded,same]
    exact bounded
  · intro other member
    rw [same] at member
    rcases List.mem_append.mp member with old | new
    · exact bounded other old
    · rw [List.mem_singleton.mp new]
      exact short line sends

theorem bounded_whole (kept : Kept p bpSize initial s) (bounded : Bounded s) (event : Event Moment Change) : Whole s event := by
  cases event with
  | serverReads moment =>
      intro reading
      obtain ⟨owed,sent,due,linked,_⟩ := kept.linked
      obtain ⟨_,_,lost⟩ := linked_bounds linked
      exact kept_toServer kept bounded fun client => by cases reading.symm.trans (lost client)
  | _ => trivial

theorem step_both (sound : Sound p bpSize) (s : Session World Moment Change) (event : Event Moment Change)
    (both : Kept p bpSize initial s ∧ Bounded s) (short : Short p event) :
    Kept p bpSize initial (step p s event) ∧ Bounded (step p s event) :=
  ⟨step_kept sound both.1 event (bounded_whole both.1 both.2 event),step_bounded both.2 event short⟩

theorem listening_both (p : Program World Moment Change) (bpSize : Nat) (initial : World) :
    Kept p bpSize initial (listening bpSize initial) ∧ Bounded (@listening _ Moment Change bpSize initial) :=
  ⟨listening_kept p bpSize initial,fun line member => by cases member⟩

theorem short_kept (sound : Sound p bpSize) (initial : World) (events : List (Event Moment Change))
    (short : ∀ event ∈ events, Short p event) :
    Kept p bpSize initial (Machine.run (step p) (listening bpSize initial) events) ∧
      Bounded (Machine.run (step p) (listening bpSize initial) events) :=
  @Machine.run_invariant _ _ (step p) (fun _ event => Short p event) _ (fun s => Kept p bpSize initial s ∧ Bounded s)
    (listening_both p bpSize initial) (step_both sound) events (Machine.along_of_forall fun event member _ => short event member)

end TcpProxy.CommandLine
