import TouchBar.Lib.Codec

/-!
# Frames on a byte stream

A frame is the length of its payload, in big-endian bytes of a fixed width, and then the
payload.  A reader takes frames from the front of the stream as long as one is there whole.

Several writers send frames on one stream, one after the other, and each may stop inside
its frame.  The log of the stream says of every writer how much of its frame it sent.  If
no byte follows a frame that was cut, the reader gets exactly the payloads of the whole
frames and is left with the front of the cut one.
-/

namespace TouchBar.Lib

variable {width : ℕ} {payload rest : List UInt8}

def frame (width : ℕ) (payload : List UInt8) : List UInt8 :=
  (leBytes width payload.length).reverse ++ payload

@[simp] lemma frame_length (width : ℕ) (payload : List UInt8) :
    (frame width payload).length = width + payload.length := by
  simp [frame]

/-! ## Reading -/

/-- The payload of the frame at the front of a stream and what follows the frame, if the
whole frame is there. -/
def takeFrame (width : ℕ) (stream : List UInt8) : Option (List UInt8 × List UInt8) :=
  let length := leValue (stream.take width).reverse
  if stream.length < width + length then none
  else some ((stream.drop width).take length, stream.drop (width + length))

/-- At most `fuel` frames from the front of a stream, and what remains. -/
def framesWithin (width : ℕ) : ℕ → List UInt8 → List (List UInt8) × List UInt8
  | 0, stream => ([], stream)
  | fuel + 1, stream =>
    match takeFrame width stream with
    | none => ([], stream)
    | some (payload, rest) =>
      (payload :: (framesWithin width fuel rest).1, (framesWithin width fuel rest).2)

/-- The payloads of the whole frames at the front of a stream, and what remains.  A frame
has at least one byte if its header has one. -/
def parseFrames (width : ℕ) (stream : List UInt8) : List (List UInt8) × List UInt8 :=
  framesWithin width stream.length stream

lemma takeFrame_frame_append (h : payload.length < 256 ^ width) :
    takeFrame width (frame width payload ++ rest) = some (payload, rest) := by
  have hheader : (frame width payload ++ rest).take width =
      (leBytes width payload.length).reverse := by
    rw [frame, List.append_assoc]
    exact List.take_left' (by simp)
  have hbody : (frame width payload ++ rest).drop width = payload ++ rest := by
    rw [frame, List.append_assoc]
    exact List.drop_left' (by simp)
  have hend : (frame width payload ++ rest).drop (width + payload.length) = rest :=
    List.drop_left' (frame_length width payload)
  have hlen : ¬(frame width payload ++ rest).length < width + payload.length := by simp
  simp only [takeFrame, hheader, List.reverse_reverse, leValue_leBytes h]
  rw [if_neg hlen, hbody, hend, List.take_left]

/-- The front of a frame is not taken for a frame. -/
lemma takeFrame_take_frame (h : payload.length < 256 ^ width) {count : ℕ}
    (hcount : count < (frame width payload).length) :
    takeFrame width ((frame width payload).take count) = none := by
  have hlen : ((frame width payload).take count).length = count := by
    rw [List.length_take]
    omega
  rw [takeFrame, if_pos]
  rw [hlen]
  by_cases hheader : count < width
  · omega
  · -- the header is complete and announces the whole payload
    have htake : ((frame width payload).take count).take width =
        (leBytes width payload.length).reverse := by
      rw [List.take_take, Nat.min_eq_left (by omega), frame]
      exact List.take_left' (by simp)
    rw [htake, List.reverse_reverse, leValue_leBytes h]
    simpa using hcount

lemma framesWithin_flatMap (hrest : takeFrame width rest = none) {payloads : List (List UInt8)}
    (h : ∀ p ∈ payloads, p.length < 256 ^ width) {fuel : ℕ} (hfuel : payloads.length ≤ fuel) :
    framesWithin width fuel (payloads.flatMap (frame width) ++ rest) = (payloads, rest) := by
  induction payloads generalizing fuel with
  | nil =>
    cases fuel with
    | zero => rfl
    | succ fuel => simp [framesWithin, hrest]
  | cons payload payloads ih =>
    obtain ⟨hpayload, hpayloads⟩ := List.forall_mem_cons.mp h
    cases fuel with
    | zero => simp at hfuel
    | succ fuel =>
      have hfuel' : payloads.length ≤ fuel := by simpa using hfuel
      simp only [List.flatMap_cons, List.append_assoc, framesWithin,
        takeFrame_frame_append hpayload, ih hpayloads hfuel']

lemma length_le_flatMap_frame (hwidth : 0 < width) (payloads : List (List UInt8)) :
    payloads.length ≤ (payloads.flatMap (frame width)).length := by
  induction payloads with
  | nil => simp
  | cons payload payloads ih =>
    simp only [List.flatMap_cons, List.length_append, List.length_cons, frame_length]
    omega

/-! ## The log of a stream -/

/-- How many bytes of the frame of its payload a writer has sent. -/
structure Sent where
  payload : List UInt8
  count : ℕ
deriving DecidableEq, Repr

namespace Sent

variable {e : Sent}

def bytes (width : ℕ) (e : Sent) : List UInt8 := (frame width e.payload).take e.count

/-- The writer has sent its whole frame. -/
def Whole (width : ℕ) (e : Sent) : Prop := (frame width e.payload).length ≤ e.count

/-- The writer has sent a part of its frame. -/
def Cut (width : ℕ) (e : Sent) : Prop := 0 < e.count ∧ e.count < (frame width e.payload).length

instance : DecidablePred (Whole width) := fun _ => Nat.decLe _ _

instance : DecidablePred (Cut width) := fun _ => instDecidableAnd

lemma bytes_of_whole (h : e.Whole width) : e.bytes width = frame width e.payload :=
  List.take_of_length_le h

lemma not_cut_of_whole (h : e.Whole width) : ¬e.Cut width := fun hcut => Nat.not_lt.mpr h hcut.2

lemma not_whole_of_unsent (hwidth : 0 < width) (h : e.count = 0) : ¬e.Whole width := by
  rw [Whole, frame_length]
  omega

end Sent

/-- What the writers put on the stream, the first of them first. -/
def written (width : ℕ) (log : List Sent) : List UInt8 := log.flatMap (Sent.bytes width)

/-- No byte follows a frame that was cut. -/
def Intact (width : ℕ) (log : List Sent) : Prop :=
  log.Pairwise fun e later => e.Cut width → later.count = 0

instance (log : List Sent) : Decidable (Intact width log) :=
  inferInstanceAs (Decidable (log.Pairwise _))

/-- The payloads of the frames that were sent whole. -/
def wholes (width : ℕ) (log : List Sent) : List (List UInt8) :=
  (log.filter fun e => e.Whole width).map Sent.payload

/-- The bytes of the frames that were cut. -/
def remnant (width : ℕ) (log : List Sent) : List UInt8 :=
  written width (log.filter fun e => e.Cut width)

/-- A log in which only the last frame may be cut is intact. -/
lemma intact_of_dropLast {log : List Sent} (h : ∀ e ∈ log.dropLast, ¬e.Cut width) :
    Intact width log := by
  rcases List.eq_nil_or_concat log with rfl | ⟨front, last, rfl⟩
  · exact List.Pairwise.nil
  · rw [List.concat_eq_append, List.dropLast_concat] at h
    rw [List.concat_eq_append, Intact, List.pairwise_append]
    refine ⟨?_, List.pairwise_singleton _ _, fun e he _ _ hcut => absurd hcut (h e he)⟩
    exact List.pairwise_of_forall_mem_list fun e he _ _ hcut => absurd hcut (h e he)

lemma unsent_nothing (hwidth : 0 < width) {log : List Sent} (h : ∀ e ∈ log, e.count = 0) :
    written width log = [] ∧ wholes width log = [] ∧ remnant width log = [] := by
  have hwhole : log.filter (fun e => e.Whole width) = [] :=
    List.filter_eq_nil_iff.mpr fun e he => by
      simpa using Sent.not_whole_of_unsent hwidth (h e he)
  have hcut : log.filter (fun e => e.Cut width) = [] :=
    List.filter_eq_nil_iff.mpr fun e he => by simp [Sent.Cut, h e he]
  refine ⟨?_, by rw [wholes, hwhole]; rfl, by rw [remnant, hcut]; rfl⟩
  rw [written, List.flatMap_eq_nil_iff]
  intro e he
  rw [Sent.bytes, h e he, List.take_zero]

/-- The stream of an intact log: whole frames, then the front of at most one more. -/
theorem written_of_intact (hwidth : 0 < width) {log : List Sent} (h : Intact width log) :
    written width log = (wholes width log).flatMap (frame width) ++ remnant width log := by
  induction log with
  | nil => rfl
  | cons e log ih =>
    obtain ⟨he, hlog⟩ := List.pairwise_cons.mp h
    have hcons : written width (e :: log) = e.bytes width ++ written width log := by
      simp [written]
    by_cases hwhole : e.Whole width
    · have hcut := Sent.not_cut_of_whole hwhole
      rw [hcons, ih hlog, Sent.bytes_of_whole hwhole]
      simp [wholes, remnant, hwhole, hcut]
    by_cases hcut : e.Cut width
    · -- everything after the cut frame is empty
      obtain ⟨hw, hws, hr⟩ := unsent_nothing hwidth fun later hlater => he later hlater hcut
      have hr' : remnant width (e :: log) = e.bytes width ++ remnant width log := by
        simp [remnant, written, hcut]
      have hws' : wholes width (e :: log) = wholes width log := by simp [wholes, hwhole]
      rw [hcons, hr', hws', hw, hws, hr]
      rfl
    · -- neither whole nor cut: nothing of the frame was sent
      have hzero : e.count = 0 := by
        simp only [Sent.Cut, Sent.Whole] at hcut hwhole
        omega
      have hnone : e.bytes width = [] := by rw [Sent.bytes, hzero, List.take_zero]
      rw [hcons, hnone, ih hlog]
      simp [wholes, remnant, hwhole, hcut]

/-- At most one frame of an intact log is cut, so a reader finds no frame in what is left. -/
lemma takeFrame_remnant (hwidth : 0 < width) {log : List Sent} (h : Intact width log)
    (hfit : ∀ e ∈ log, e.payload.length < 256 ^ width) :
    takeFrame width (remnant width log) = none := by
  induction log with
  | nil =>
    have hempty : remnant width [] = [] := rfl
    have hpos : ([] : List UInt8).length < width + leValue (([] : List UInt8).take width).reverse :=
      Nat.add_pos_left hwidth _
    rw [hempty, takeFrame, if_pos hpos]
  | cons e log ih =>
    obtain ⟨he, hlog⟩ := List.pairwise_cons.mp h
    obtain ⟨hfite, hfitlog⟩ := List.forall_mem_cons.mp hfit
    by_cases hcut : e.Cut width
    · obtain ⟨-, -, hr⟩ := unsent_nothing hwidth fun later hlater => he later hlater hcut
      have hr' : remnant width (e :: log) = e.bytes width ++ remnant width log := by
        simp [remnant, written, hcut]
      rw [hr', hr, List.append_nil]
      exact takeFrame_take_frame hfite hcut.2
    · have hr' : remnant width (e :: log) = remnant width log := by simp [remnant, hcut]
      rw [hr']
      exact ih hlog hfitlog

/-- A reader of the stream of an intact log gets the payloads of the frames that were sent
whole, in order, and is left with the front of the frame that was cut. -/
theorem parseFrames_written (hwidth : 0 < width) {log : List Sent} (h : Intact width log)
    (hfit : ∀ e ∈ log, e.payload.length < 256 ^ width) :
    parseFrames width (written width log) = (wholes width log, remnant width log) := by
  have hfit' : ∀ p ∈ wholes width log, p.length < 256 ^ width := by
    intro p hp
    obtain ⟨e, he, rfl⟩ := List.mem_map.mp hp
    exact hfit e (List.mem_filter.mp he).1
  have hfuel : (wholes width log).length ≤
      ((wholes width log).flatMap (frame width) ++ remnant width log).length := by
    have := length_le_flatMap_frame hwidth (wholes width log)
    rw [List.length_append]
    omega
  rw [written_of_intact hwidth h, parseFrames]
  exact framesWithin_flatMap (takeFrame_remnant hwidth h hfit) hfit' hfuel

end TouchBar.Lib
