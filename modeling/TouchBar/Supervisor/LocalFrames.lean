import TouchBar.Supervisor.Local

/-!
# Frames on local connections

A send that is cancelled, runs out of time or fails inside its frame returns an error and
frees the lock, and the connection stays open.  The next send then writes its frame behind
the cut one.  This file says what the steps of the broker do to the streams, shows that the
stream is always what the log of the connection says, and that frames stay intact exactly
as long as no send gets the lock of an open connection behind a cut frame.
-/

namespace TouchBar.Supervisor.LocalIpcBackend

open TouchBar.Rust TouchBar.Lib TouchBar.Policy TouchBar.Schema TouchBar.Protocol Outcome

variable {s s' : LocalIpcBackend} {a : LocalAction} {id id' operation operation' offset : ℕ}
  {c c' : LocalConnection} {frame : LocalSendFrame} {part : Part} {sending : Sending}
  {result : BrokerResult}

/-! ## Fields of the updates -/

@[simp] lemma sends_setConnection : (s.setConnection id c).sends = s.sends := rfl

@[simp] lemma connections_setSend :
    (s.setSend operation sending).connections = s.connections := rfl

lemma sends_setSend : (s.setSend operation sending).sends operation' =
    if operation' = operation then sending else s.sends operation' := by
  simp [setSend, Function.update_apply]

lemma get_setConnection : (s.setConnection id c).connections.get id' =
    if id' = id then some c else s.connections.get id' :=
  BTreeMap.get_insert

/-! ## What a turn of a write loop accepts -/

/-- How many bytes of its frame a send has written when a part begins. -/
def before : Part → ℕ
  | .header => 0
  | .payload => 4

lemma frame_eq (frame : LocalSendFrame) :
    Lib.frame 4 frame.bytes = partBytes frame .header ++ partBytes frame .payload := rfl

/-- A part of a send is written to its place in the frame. -/
lemma prefix_drop_frame (frame : LocalSendFrame) (part : Part) (offset : ℕ)
    (h : offset ≤ (partBytes frame part).length) :
    (partBytes frame part).drop offset <+:
      (Lib.frame 4 frame.bytes).drop (before part + offset) := by
  cases part with
  | header =>
    rw [frame_eq, before, Nat.zero_add, List.drop_append_of_le_length h]
    exact List.prefix_append _ _
  | payload =>
    have hheader : (partBytes frame .header).length = 4 := by simp [partBytes]
    rw [frame_eq, before, ← List.drop_drop, ← hheader, List.drop_left]

lemma take_frame_append (h : offset ≤ (partBytes frame part).length) (n : ℕ) :
    (Lib.frame 4 frame.bytes).take (before part + offset) ++
        ((partBytes frame part).drop offset).take n =
      (Lib.frame 4 frame.bytes).take
        (before part + offset + (((partBytes frame part).drop offset).take n).length) := by
  have hpre := (List.take_prefix n _).trans (prefix_drop_frame frame part offset h)
  conv_rhs => rw [List.take_add]
  rw [← List.prefix_iff_eq_take.mp hpre]

/-- The next turn goes on where the last one stopped. -/
lemma nextWrite_eq_some {part' : Part} {offset' : ℕ}
    (h : offset ≤ (partBytes frame part).length)
    (hnext : nextWrite frame part offset = some (part', offset')) :
    offset' < (partBytes frame part').length ∧ before part' + offset' = before part + offset := by
  cases part with
  | header =>
    rw [nextWrite] at hnext
    split_ifs at hnext with hmore hpayload
    · cases hnext
      exact ⟨hmore, rfl⟩
    · cases hnext
      have hheader : (partBytes frame .header).length = 4 := by simp [partBytes]
      exact ⟨hpayload, by simp only [before]; omega⟩
  | payload =>
    rw [nextWrite] at hnext
    split_ifs at hnext with hmore
    cases hnext
    exact ⟨hmore, rfl⟩

/-! ## The invariant of the streams -/

/-- What a state of the broker keeps: frames fit their header, the stream of a connection is
what its log says, and a send that writes holds the lock of its connection, with its frame
last in the log. -/
structure WellFormed (s : LocalIpcBackend) : Prop where
  waiting_fits : ∀ operation frame, s.sends operation = .waiting frame →
    frame.bytes.length < 256 ^ 4
  log_fits : ∀ id c, s.connections.get id = some c → ∀ e ∈ c.log, e.payload.length < 256 ^ 4
  stream_eq : ∀ id c, s.connections.get id = some c → c.stream = written 4 c.log
  writer : ∀ operation frame part offset, s.sends operation = .writing frame part offset →
    offset < (partBytes frame part).length ∧
      ∃ c front, s.connections.get frame.resourceId.toNat = some c ∧
        c.holder = some operation ∧ c.log = front ++ [⟨frame.bytes, before part + offset⟩]

lemma wellFormed_initial : initial.WellFormed where
  waiting_fits _ _ h := by cases h
  log_fits _ _ h := by cases h
  stream_eq _ _ h := by cases h
  writer _ _ _ _ h := by cases h

/-- What a step can do to a broker. -/
inductive Change (s : LocalIpcBackend) : LocalAction → LocalIpcBackend → Prop where
  | nothing {a : LocalAction} : Change s a s
  | opened {a : LocalAction} {id : ℕ} (authorization : LocalConnectionAuthorization)
      (hid : s.connections.get id = none) :
      Change s a (s.setConnection id ⟨authorization, false, [], none, []⟩)
  | closed {a : LocalAction} {id : ℕ} {c : LocalConnection} (hc : s.connections.get id = some c) :
      Change s a (s.setConnection id { c with closed := true })
  | admitted {a : LocalAction} {operation : ℕ} {frame : LocalSendFrame}
      (hidle : s.sends operation = .idle) (hfits : frame.bytes.length < 256 ^ 4) :
      Change s a (s.setSend operation (.waiting frame))
  | refused {a : LocalAction} {operation : ℕ} {result : BrokerResult}
      (hsend : ∀ frame part offset, s.sends operation ≠ .writing frame part offset) :
      Change s a (s.setSend operation (.done result))
  | locked {operation : ℕ} {frame : LocalSendFrame} {c : LocalConnection}
      (hsend : s.sends operation = .waiting frame)
      (hc : s.connections.get frame.resourceId.toNat = some c) (hholder : c.holder = none)
      (hclosed : c.closed = false) :
      Change s (.lock operation)
        ((s.setConnection frame.resourceId.toNat
          { c with holder := some operation, log := c.log ++ [⟨frame.bytes, 0⟩] }).setSend
          operation (.writing frame .header 0))
  /-- a turn of a write loop: after it the send goes on and keeps the lock, or is done -/
  | wrote {a : LocalAction} {operation offset n : ℕ} {frame : LocalSendFrame} {part : Part}
      {c : LocalConnection} {front : List Sent} {next : Sending} {holder : Option ℕ}
      (hsend : s.sends operation = .writing frame part offset)
      (hc : s.connections.get frame.resourceId.toNat = some c)
      (hlog : c.log = front ++ [⟨frame.bytes, before part + offset⟩])
      (hnext : (∃ result, next = .done result) ∨
        ∃ part' offset', next = .writing frame part' offset' ∧ holder = some operation ∧
          offset' < (partBytes frame part').length ∧ before part' + offset' =
            before part + offset + (((partBytes frame part).drop offset).take n).length) :
      Change s a
        ((s.setConnection frame.resourceId.toNat
          { c with
            stream := c.stream ++ ((partBytes frame part).drop offset).take n
            holder := holder
            log := front ++ [⟨frame.bytes, before part + offset +
              (((partBytes frame part).drop offset).take n).length⟩] }).setSend operation next)

lemma accept_eq {front : List Sent} {e : Sent} {bytes : List UInt8}
    (hc : s.connections.get id = some c) (hlog : c.log = front ++ [e]) :
    s.accept id bytes = s.setConnection id
      { c with
        stream := c.stream ++ bytes
        log := front ++ [{ e with count := e.count + bytes.length }] } := by
  simp only [accept, hc, hlog, List.modifyLast_concat]

lemma finish_eq (hc : s.connections.get frame.resourceId.toNat = some c) :
    s.finish operation frame result =
      (s.setConnection frame.resourceId.toNat { c with holder := none }).setSend operation
        (.done result) := by
  simp only [finish, hc]

lemma setConnection_setConnection :
    (s.setConnection id c).setConnection id c' = s.setConnection id c' := by
  simp only [setConnection, BTreeMap.insert_insert]

lemma get_setConnection_self : (s.setConnection id c).connections.get id = some c := by
  rw [get_setConnection, if_pos rfl]

/-- A send that stops where it stands. -/
lemma change_finish (h : s.WellFormed) (hsend : s.sends operation = .writing frame part offset) :
    Change s a (s.finish operation frame result) := by
  obtain ⟨-, c, front, hc, -, hlog⟩ := h.writer _ _ _ _ hsend
  have hwrote : Change s a _ :=
    @Change.wrote _ _ _ _ 0 _ _ _ _ (.done result) none hsend hc hlog (.inl ⟨_, rfl⟩)
  rw [finish_eq hc]
  simpa [← hlog] using hwrote

lemma change_turn (h : s.WellFormed) (hsend : s.sends operation = .writing frame part offset)
    (reason : Option BrokerErrorCode) (attempt : WriteAttempt) :
    Change s a (s.turn operation frame part offset reason attempt) := by
  rw [turn.eq_def]
  split
  · exact change_finish h hsend
  · exact change_finish h hsend
  · rename_i count
    dsimp only
    obtain ⟨hoffset, c, front, hc, hholder, hlog⟩ := h.writer _ _ _ _ hsend
    set accepted := ((partBytes frame part).drop offset).take (count + 1)
    have hend : offset + accepted.length ≤ (partBytes frame part).length := by
      have hle : accepted.length ≤ ((partBytes frame part).drop offset).length :=
        List.length_take_le' _ _
      rw [List.length_drop] at hle
      omega
    rw [accept_eq hc hlog]
    cases hnext : nextWrite frame part (offset + accepted.length) with
    | some next =>
      obtain ⟨part', offset'⟩ := next
      obtain ⟨hlt, hplace⟩ := nextWrite_eq_some hend hnext
      rw [← Nat.add_assoc] at hplace
      have hwrote : Change s a _ :=
        @Change.wrote _ _ _ _ (count + 1) _ _ _ _ _ c.holder hsend hc hlog
          (.inr ⟨part', offset', rfl, hholder, hlt, hplace⟩)
      exact hwrote
    | none =>
      have hwrote : Change s a _ :=
        @Change.wrote _ _ _ _ (count + 1) _ _ _ _ (.done (.success [])) none hsend hc hlog
          (.inl ⟨_, rfl⟩)
      simp only [finish_eq get_setConnection_self, setConnection_setConnection]
      exact hwrote
  · exact .nothing
  · exact change_finish h hsend

lemma openConnection_eq_ok {resourceId : UInt64} {request : LocalRequest}
    {socket : Outcome BrokerErrorCode Unit} {spawned : Bool}
    (h : s.openConnection resourceId request socket spawned = ok s') :
    s.connections.get resourceId.toNat = none ∧ ∃ authorization,
      s' = s.setConnection resourceId.toNat ⟨authorization, false, [], none, []⟩ := by
  simp only [openConnection, bind_eq_ok, rejectIf_eq_ok] at h
  obtain ⟨⟨_, authorization⟩, -, -, -, -, -, -, hfree, -, -, h⟩ := h
  cases h
  refine ⟨?_, authorization, rfl⟩
  simpa [BTreeMap.containsKey] using hfree

lemma beginSend_eq_ok {request : LocalRequest} {reason : Option BrokerErrorCode}
    {reserve : ℕ → ℕ → Outcome BrokerErrorCode Unit}
    (h : s.beginSend request reason reserve = ok frame) : frame.bytes.length < 256 ^ 4 := by
  cases reason with
  | some code => cases h
  | none =>
    simp only [beginSend, bind_eq_ok, rejectIf_eq_ok, decide_eq_false_iff_not, Nat.not_le] at h
    obtain ⟨⟨matched, _⟩, -, -, -, -, hlen, h⟩ := h
    cases h
    exact hlen

/-- Every step of a well-formed broker is one of the changes. -/
theorem step_change (h : s.WellFormed) (a : LocalAction) : Change s a (s.step a) := by
  cases a with
  | openConnection resourceId request socket spawned =>
    simp only [step]
    split
    · rename_i s' hopen
      obtain ⟨hid, authorization, rfl⟩ := openConnection_eq_ok hopen
      exact .opened authorization hid
    · exact .nothing
  | execute operation request reason reserve =>
    simp only [step]
    split
    · rename_i hidle
      split
      · rename_i frame hbegin
        exact .admitted hidle (beginSend_eq_ok hbegin)
      · exact .refused (by simp [hidle])
      · exact .nothing
    · exact .nothing
  | lock operation =>
    simp only [step]
    split
    · rename_i frame hsend
      split
      · rename_i c hc
        split_ifs with hholder
        · rw [lock]
          split_ifs with hclosed
          · exact .refused (by simp [hsend])
          · exact .locked hsend hc hholder (by simpa using hclosed)
        · exact .nothing
      · exact .nothing
    · exact .nothing
  | turn operation reason attempt =>
    simp only [step]
    split
    · rename_i hsend
      exact change_turn h hsend reason attempt
    · exact .nothing
  | close resourceId =>
    simp only [step]
    split
    · rename_i hc
      exact .closed hc
    · exact .nothing

/-! ## Preservation -/

/-- A connection that no other send writes to can be updated together with the send. -/
lemma WellFormed.update {next : Sending} (h : s.WellFormed)
    (hfits : ∀ e ∈ c.log, e.payload.length < 256 ^ 4) (hstream : c.stream = written 4 c.log)
    (hwaiting : ∀ frame, next ≠ .waiting frame)
    (hnext : ∀ frame part offset, next = .writing frame part offset →
      frame.resourceId.toNat = id ∧ offset < (partBytes frame part).length ∧
        c.holder = some operation ∧
          ∃ front, c.log = front ++ [⟨frame.bytes, before part + offset⟩])
    (hothers : ∀ operation' frame part offset, operation' ≠ operation →
      s.sends operation' = .writing frame part offset → frame.resourceId.toNat ≠ id) :
    ((s.setConnection id c).setSend operation next).WellFormed where
  waiting_fits operation' frame hsend := by
    rw [sends_setSend] at hsend
    split_ifs at hsend with hop
    · exact absurd hsend (hwaiting frame)
    · exact h.waiting_fits operation' frame hsend
  log_fits id' c' hc' := by
    rw [connections_setSend, get_setConnection] at hc'
    split_ifs at hc' with hid
    · cases hc'
      exact hfits
    · exact h.log_fits id' c' hc'
  stream_eq id' c' hc' := by
    rw [connections_setSend, get_setConnection] at hc'
    split_ifs at hc' with hid
    · cases hc'
      exact hstream
    · exact h.stream_eq id' c' hc'
  writer operation' frame part offset hsend := by
    rw [sends_setSend] at hsend
    rw [connections_setSend]
    split_ifs at hsend with hop
    · obtain ⟨rfl, hoffset, hholder, front, hlog⟩ := hnext frame part offset hsend
      exact ⟨hoffset, c, front, get_setConnection_self, hop ▸ hholder, hlog⟩
    · rw [get_setConnection, if_neg (hothers operation' frame part offset hop hsend)]
      exact h.writer operation' frame part offset hsend

/-- A send writes only while it holds the lock, so no other send writes to its connection. -/
lemma WellFormed.other_connection (h : s.WellFormed) (hc : s.connections.get id = some c)
    (hholder : c.holder ≠ some operation') {frame : LocalSendFrame} {part : Part} {offset : ℕ}
    (hsend : s.sends operation' = .writing frame part offset) : frame.resourceId.toNat ≠ id := by
  rintro rfl
  obtain ⟨-, c', -, hc', hholder', -⟩ := h.writer _ _ _ _ hsend
  rw [hc] at hc'
  cases hc'
  exact hholder hholder'

/-- The log after a turn: the last entry has grown by what the socket accepted. -/
lemma written_concat_append {front : List Sent} (h : offset ≤ (partBytes frame part).length)
    (n : ℕ) :
    written 4 (front ++ [⟨frame.bytes, before part + offset⟩]) ++
        ((partBytes frame part).drop offset).take n =
      written 4 (front ++ [⟨frame.bytes, before part + offset +
        (((partBytes frame part).drop offset).take n).length⟩]) := by
  simp only [written, List.flatMap_append, List.flatMap_singleton, Sent.bytes, List.append_assoc,
    take_frame_append h]

theorem wellFormed_change (h : s.WellFormed) (hchange : Change s a s') : s'.WellFormed := by
  cases hchange with
  | nothing => exact h
  | opened authorization hid =>
    refine ⟨h.waiting_fits, fun id' c' hc' => ?_, fun id' c' hc' => ?_,
      fun operation frame part offset hsend => ?_⟩
    · rw [get_setConnection] at hc'
      split_ifs at hc'
      · cases hc'
        simp
      · exact h.log_fits id' c' hc'
    · rw [get_setConnection] at hc'
      split_ifs at hc'
      · cases hc'
        rfl
      · exact h.stream_eq id' c' hc'
    · obtain ⟨hoffset, c, front, hc, hrest⟩ := h.writer operation frame part offset hsend
      refine ⟨hoffset, c, front, ?_, hrest⟩
      rw [get_setConnection, if_neg, hc]
      rintro rfl
      rw [hid] at hc
      cases hc
  | closed hc =>
    rename_i id c
    refine ⟨h.waiting_fits, fun id' c' hc' => ?_, fun id' c' hc' => ?_,
      fun operation frame part offset hsend => ?_⟩
    · rw [get_setConnection] at hc'
      split_ifs at hc'
      · cases hc'
        exact h.log_fits id c hc
      · exact h.log_fits id' c' hc'
    · rw [get_setConnection] at hc'
      split_ifs at hc'
      · cases hc'
        exact h.stream_eq id c hc
      · exact h.stream_eq id' c' hc'
    · obtain ⟨hoffset, c₀, front, hc₀, hrest⟩ := h.writer operation frame part offset hsend
      rw [get_setConnection]
      by_cases hid : frame.resourceId.toNat = id
      · rw [hid, hc] at hc₀
        cases hc₀
        exact ⟨hoffset, _, front, if_pos hid, hrest⟩
      · exact ⟨hoffset, c₀, front, (if_neg hid).trans hc₀, hrest⟩
  | admitted hidle hfits =>
    refine ⟨fun operation' frame' hsend => ?_, h.log_fits, h.stream_eq,
      fun operation' frame' part offset hsend => ?_⟩
    · rw [sends_setSend] at hsend
      split_ifs at hsend
      · cases hsend
        exact hfits
      · exact h.waiting_fits operation' frame' hsend
    · rw [sends_setSend] at hsend
      split_ifs at hsend
      exact h.writer operation' frame' part offset hsend
  | refused hsend =>
    refine ⟨fun operation' frame' hsend' => ?_, h.log_fits, h.stream_eq,
      fun operation' frame' part offset hsend' => ?_⟩
    · rw [sends_setSend] at hsend'
      split_ifs at hsend'
      exact h.waiting_fits operation' frame' hsend'
    · rw [sends_setSend] at hsend'
      split_ifs at hsend'
      exact h.writer operation' frame' part offset hsend'
  | locked hsend hc hholder hclosed =>
    rename_i operation frame c
    refine h.update ?_ ?_ (by simp) ?_ ?_
    · intro e he
      rcases List.mem_append.mp he with he | he
      · exact h.log_fits _ c hc e he
      · rw [List.mem_singleton.mp he]
        exact h.waiting_fits operation frame hsend
    · have hnew : written 4 [⟨frame.bytes, 0⟩] = [] := rfl
      simp only [h.stream_eq _ c hc, written, List.flatMap_append] at hnew ⊢
      rw [hnew, List.append_nil]
    · intro frame' part offset hnext
      cases hnext
      exact ⟨rfl, by simp [partBytes], rfl, c.log, rfl⟩
    · intro operation' frame' part offset _ hsend'
      exact h.other_connection hc (by simp [hholder]) hsend'
  | wrote hsend hc hlog hnext =>
    rename_i operation offset n frame part c front next holder
    obtain ⟨hoffset, c₀, -, hc₀, hholder, -⟩ := h.writer _ _ _ _ hsend
    rw [hc] at hc₀
    cases hc₀
    refine h.update ?_ ?_ ?_ ?_ ?_
    · intro e he
      have hold := h.log_fits _ c hc
      rw [hlog] at hold
      rcases List.mem_append.mp he with he | he
      · exact hold e (List.mem_append_left _ he)
      · rw [List.mem_singleton.mp he]
        exact hold ⟨frame.bytes, before part + offset⟩ (by simp)
    · rw [h.stream_eq _ c hc, hlog]
      exact written_concat_append hoffset.le n
    · rintro frame' rfl
      rcases hnext with ⟨result, hnext⟩ | ⟨part', offset', hnext, -⟩ <;> cases hnext
    · rintro frame' part' offset' rfl
      rcases hnext with ⟨result, hnext⟩ | ⟨part₁, offset₁, hnext, hkeep, hlt, hplace⟩
      · cases hnext
      · cases hnext
        exact ⟨rfl, hlt, hkeep, front, by rw [hplace]⟩
    · intro operation' frame' part' offset' hop hsend'
      refine h.other_connection hc ?_ hsend'
      rw [hholder]
      simpa using hop.symm

lemma wellFormed_step (h : s.WellFormed) (a : LocalAction) : (s.step a).WellFormed :=
  wellFormed_change h (step_change h a)

lemma wellFormed_run (l : List LocalAction) : (run step initial l).WellFormed :=
  run_invariant (P := WellFormed) (fun _ a h => wellFormed_step h a) wellFormed_initial l

/-! ## Intact frames -/

/-- On every connection the frames are intact, and a peer that parses the stream gets the
payloads of the sends that wrote their whole frame, and then the front of the frame that was
cut, if one was. -/
def FramesIntact (s : LocalIpcBackend) : Prop :=
  ∀ id c, s.connections.get id = some c → c.stream = written 4 c.log ∧ Intact 4 c.log ∧
    parseFrames 4 c.stream = (wholes 4 c.log, remnant 4 c.log)

/-- A send that gets the lock of an open connection finds no frame cut there. -/
def cleanLock (s : LocalIpcBackend) : LocalAction → Bool
  | .lock operation =>
    match s.sends operation with
    | .waiting frame =>
      match s.connections.get frame.resourceId.toNat with
      | some c => c.holder.isSome || c.closed || c.log.all fun e => !decide (e.Cut 4)
      | none => true
    | _ => true
  | _ => true

/-- Only the last frame of a connection may be cut. -/
def LastMayBeCut (s : LocalIpcBackend) : Prop :=
  ∀ id c, s.connections.get id = some c → ∀ e ∈ c.log.dropLast, ¬e.Cut 4

lemma lastMayBeCut_change (h : s.LastMayBeCut) (hchange : Change s a s')
    (hclean : s.cleanLock a = true) : s'.LastMayBeCut := by
  intro id c' hc'
  cases hchange with
  | nothing | admitted | refused => exact h id c' hc'
  | opened authorization hid =>
    rw [get_setConnection] at hc'
    split_ifs at hc'
    · cases hc'
      simp
    · exact h id c' hc'
  | closed hc =>
    rename_i id₀ c
    rw [get_setConnection] at hc'
    split_ifs at hc'
    · cases hc'
      exact h id₀ c hc
    · exact h id c' hc'
  | locked hsend hc hholder hclosed =>
    rw [connections_setSend, get_setConnection] at hc'
    split_ifs at hc'
    · cases hc'
      rw [List.dropLast_concat]
      simpa [cleanLock, hsend, hc, hholder, hclosed] using hclean
    · exact h id c' hc'
  | wrote hsend hc hlog hnext =>
    rw [connections_setSend, get_setConnection] at hc'
    split_ifs at hc'
    · cases hc'
      have hold := h _ _ hc
      rw [hlog, List.dropLast_concat] at hold
      rwa [List.dropLast_concat]
    · exact h id c' hc'

lemma framesIntact_of_lastMayBeCut (h : s.WellFormed) (hcut : s.LastMayBeCut) :
    s.FramesIntact := by
  intro id c hc
  have hstream := h.stream_eq id c hc
  have hintact := intact_of_dropLast (hcut id c hc)
  refine ⟨hstream, hintact, ?_⟩
  rw [hstream]
  exact parseFrames_written (by decide) hintact (h.log_fits id c hc)

lemma cleanLock_eq_false (h : s.cleanLock (.lock operation) = false) :
    ∃ frame c, s.sends operation = .waiting frame ∧
      s.connections.get frame.resourceId.toNat = some c ∧ c.holder = none ∧ c.closed = false ∧
        ∃ e ∈ c.log, e.Cut 4 := by
  rw [cleanLock] at h
  split at h
  · rename_i frame hsend
    split at h
    · rename_i c hc
      refine ⟨frame, c, hsend, hc, ?_⟩
      simpa [Option.not_isSome_iff_eq_none, and_assoc] using h
    · cases h
  · cases h

/-- The first turn of a send, if the socket accepts one byte. -/
lemma get_first_byte {front : List Sent} (hsend : s.sends operation = .writing frame .header 0)
    (hc : s.connections.get frame.resourceId.toNat = some c)
    (hlog : c.log = front ++ [⟨frame.bytes, 0⟩]) :
    ∃ c', (s.step (.turn operation none (.wrote 1))).connections.get frame.resourceId.toNat =
      some c' ∧ c'.log = front ++ [⟨frame.bytes, 1⟩] := by
  have hheader : (partBytes frame .header).length = 4 := by simp [partBytes]
  have haccepted : (((partBytes frame .header).drop 0).take 1).length = 1 := by
    rw [List.drop_zero, List.length_take, hheader]
    rfl
  have hnext : nextWrite frame .header
      (0 + (((partBytes frame .header).drop 0).take (0 + 1)).length) = some (.header, 1) := by
    rw [Nat.zero_add, Nat.zero_add, haccepted, nextWrite, if_pos (by rw [hheader]; decide)]
  simp only [step, hsend, turn, hnext, accept_eq hc hlog]
  refine ⟨_, get_setConnection_self, ?_⟩
  simp [hheader]

/-- The first byte of a send that follows a cut frame breaks the stream. -/
lemma not_framesIntact_of_not_cleanLock (h : s.cleanLock (.lock operation) = false) :
    ¬((s.step (.lock operation)).step (.turn operation none (.wrote 1))).FramesIntact := by
  obtain ⟨frame, c, hsend, hc, hholder, hclosed, e, he, hcut⟩ := cleanLock_eq_false h
  obtain ⟨c₁, hc₁⟩ : ∃ c₁ : LocalConnection, c₁ =
    { c with holder := some operation, log := c.log ++ [⟨frame.bytes, 0⟩] } := ⟨_, rfl⟩
  have hlock : s.step (.lock operation) =
      (s.setConnection frame.resourceId.toNat c₁).setSend operation (.writing frame .header 0) := by
    simp [step, hsend, hc, hholder, lock, hclosed, hc₁]
  have hsend₁ : (s.step (.lock operation)).sends operation = .writing frame .header 0 := by
    rw [hlock, sends_setSend, if_pos rfl]
  have hget₁ : (s.step (.lock operation)).connections.get frame.resourceId.toNat = some c₁ := by
    rw [hlock, connections_setSend, get_setConnection_self]
  obtain ⟨c₂, hget₂, hlog₂⟩ := get_first_byte hsend₁ hget₁ (by rw [hc₁])
  intro hintact
  obtain ⟨-, hlog, -⟩ := hintact _ c₂ hget₂
  rw [hlog₂, Intact, List.pairwise_append] at hlog
  -- the cut frame stands before the frame that now has one byte
  have hzero := hlog.2.2 e he ⟨frame.bytes, 1⟩ (List.mem_singleton_self _) hcut
  cases hzero

/-- In a run in which no send gets the lock of an open connection behind a cut frame, the
frames of every connection are intact.  The condition is needed: where a send gets the lock
in spite of it, its first byte breaks the stream. -/
theorem frames_intact_of_clean_locks {l : List LocalAction}
    (hl : Meets step (fun s a => s.cleanLock a = true) initial l) :
    (run step initial l).FramesIntact ∧ ∀ operation,
      (run step initial l).cleanLock (.lock operation) = false →
        ¬(run step initial
          (l ++ [.lock operation, .turn operation none (.wrote 1)])).FramesIntact := by
  have hinv : (run step initial l).WellFormed ∧ (run step initial l).LastMayBeCut := by
    refine @run_invariant_of_meets _ _ step (fun s => s.WellFormed ∧ s.LastMayBeCut) _ ?_ _
      ⟨wellFormed_initial, fun id c hc => by cases hc⟩ l hl
    rintro s a ⟨hwf, hcut⟩ hclean
    exact ⟨wellFormed_step hwf a, lastMayBeCut_change hcut (step_change hwf a) hclean⟩
  refine ⟨framesIntact_of_lastMayBeCut hinv.1 hinv.2, fun operation hlock => ?_⟩
  rw [run_append]
  exact not_framesIntact_of_not_cleanLock hlock

/-! ## A send that is cancelled behind its header -/

def playerScope : LocalConnectScope :=
  ⟨.ofList [⟨"player", "mpris", none⟩], 4096, 65536⟩

def playerRequest (operation : String) (payload : List UInt8) : LocalRequest where
  capability := .localConnectV1
  authorizedScope := .localConnect playerScope
  activation := none
  operation := operation
  payload := payload
  bindings :=
    { GrantBindings.default with
      localEndpoints := BTreeMap.empty.insert "player" (.unixStream "/run/user/1000/player") }
  instanceId := 7

def payloadOf (encoded : Outcome SchemaError (List UInt8)) : List UInt8 :=
  match encoded with
  | ok bytes => bytes
  | _ => []

def sendRequest (bytes : List UInt8) : LocalRequest :=
  playerRequest localSendOperation (payloadOf (LocalSendFrame.encode ⟨1, bytes⟩))

/-- The first send is cancelled after its header, the second passes its check. -/
def cancelledBehindHeader : List LocalAction :=
  [.openConnection 1
      (playerRequest localConnectOperation (payloadOf (LocalConnect.encode ⟨"player", "mpris"⟩)))
      (ok ()) true,
    .execute 1 (sendRequest [1, 2]) none fun _ _ => ok (),
    .lock 1,
    .turn 1 none (.wrote 4),
    .turn 1 (some .cancelled) .retry,
    .execute 2 (sendRequest [9, 9, 9]) none fun _ _ => ok ()]

theorem frames_intact_of_clean_locks_cancelledBehindHeader :
    (run step initial cancelledBehindHeader).FramesIntact ∧
      ¬(run step initial
        (cancelledBehindHeader ++ [.lock 2, .turn 2 none (.wrote 1)])).FramesIntact := by
  obtain ⟨hintact, hbroken⟩ :=
    frames_intact_of_clean_locks (l := cancelledBehindHeader) (by decide)
  exact ⟨hintact, hbroken 2 (by decide)⟩

/-- The whole second frame follows the header of the first: the peer takes the first two
bytes of the second header for a frame. -/
theorem cancelled_send_shifts_frames :
    ¬(run step initial (cancelledBehindHeader ++
        [.lock 2, .turn 2 none (.wrote 4), .turn 2 none (.wrote 3)])).FramesIntact ∧
      ((run step initial (cancelledBehindHeader ++
        [.lock 2, .turn 2 none (.wrote 4), .turn 2 none (.wrote 3)])).connections.get 1).map
          (fun c => (c.stream, parseFrames 4 c.stream)) =
        some ([0, 0, 0, 2, 0, 0, 0, 3, 9, 9, 9], [[0, 0]], [0, 3, 9, 9, 9]) := by
  have hparsed : ((run step initial (cancelledBehindHeader ++
      [.lock 2, .turn 2 none (.wrote 4), .turn 2 none (.wrote 3)])).connections.get 1).map
        (fun c => (c.stream, parseFrames 4 c.stream)) =
      some ([0, 0, 0, 2, 0, 0, 0, 3, 9, 9, 9], [[0, 0]], [0, 3, 9, 9, 9]) := by
    decide
  have hlog : ((run step initial (cancelledBehindHeader ++
      [.lock 2, .turn 2 none (.wrote 4), .turn 2 none (.wrote 3)])).connections.get 1).map
        (fun c => decide (Intact 4 c.log)) = some false := by
    decide
  refine ⟨fun hintact => ?_, hparsed⟩
  obtain ⟨c, hc, hfalse⟩ := Option.map_eq_some_iff.mp hlog
  exact absurd (hintact 1 c hc).2.1 (by simpa using hfalse)

end TouchBar.Supervisor.LocalIpcBackend
