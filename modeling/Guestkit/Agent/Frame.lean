import Guestkit.Lib.Bytes
import Guestkit.Lib.Hoare

/-! The two framings of the agent channel: frames behind a length, and lines.  Bytes come in chunks,
as a device hands them out. -/

namespace Guestkit.Agent

open Lib List

inductive FrameError where
  | io
  | invalidRequest (what : String)
  deriving DecidableEq

/-- A source of bytes.  One read takes bytes of the first chunk only, and a read of nothing is the
end of the input.  `buffers` records the sizes of the buffers allocated. -/
structure Reader where
  chunks : List (List Byte)
  buffers : List Nat := []

abbrev ReadM := EStateM FrameError Reader

def leftOver (c : List Byte) (cs : List (List Byte)) : List (List Byte) :=
  if c = [] then cs else c :: cs

/-- `read_exact` of the standard library: reads until `n` bytes are there. -/
def takeExact (n : Nat) : List (List Byte) → Option (List Byte) × List (List Byte)
  | [] => (if n = 0 then some [] else none, [])
  | c :: cs =>
    if n = 0 then (some [], c :: cs)
    else if c = [] then (none, cs)
    else if n ≤ c.length then (some (c.take n), leftOver (c.drop n) cs)
    else
      let (bytes, cs) := takeExact (n - c.length) cs
      (bytes.map (c ++ ·), cs)

def readExact (n : Nat) : ReadM (List Byte) := fun r =>
  match takeExact n r.chunks with
  | (some bytes, cs) => .ok bytes { r with chunks := cs }
  | (none, cs) => .error .io { r with chunks := cs }

/-- The single bytes that the loop of `read_frame` reads, up to the first that is no sentinel. -/
def skipSentinels : List (List Byte) → Option Byte × List (List Byte)
  | [] => (none, [])
  | c :: cs =>
    if c = [] then (none, cs)
    else
      match c.dropWhile (· = 0xFF) with
      | [] => skipSentinels cs
      | b :: c => (some b, leftOver c cs)

def firstByte : ReadM Byte := fun r =>
  match skipSentinels r.chunks with
  | (some b, cs) => .ok b { r with chunks := cs }
  | (none, cs) => .error .io { r with chunks := cs }

def maxFrameSize : Nat := 16 * 1024 * 1024

def fromBeBytes (bytes : List Byte) : Nat := bytes.foldl (fun n b => n * 256 + b.toNat) 0

def toBeBytes (n : Nat) : List Byte :=
  [n / 2 ^ 24, n / 2 ^ 16, n / 2 ^ 8, n].map (BitVec.ofNat 8)

def readPayload (len : Nat) : ReadM (List Byte) :=
  if len = 0 then throw (.invalidRequest "empty frame")
  else if maxFrameSize < len then
    throw (.invalidRequest s!"frame too large: {len} bytes (max {maxFrameSize})")
  else do
    modify fun r => { r with buffers := len :: r.buffers }
    readExact len

def readFrame : ReadM (List Byte) := do
  let first ← firstByte
  let rest ← readExact 3
  readPayload (fromBeBytes (first :: rest))

/-- What a frame of the payload is written as; its length is cut to 32 bits. -/
def frame (payload : List Byte) : List Byte := toBeBytes (payload.length % 2 ^ 32) ++ payload

def writeFrame (payload : List Byte) : Except FrameError (List Byte) := do
  bailIf (payload = []) (.invalidRequest "empty payload")
  bailIf (maxFrameSize < payload.length % 2 ^ 32)
    (.invalidRequest s!"payload too large: {payload.length} bytes")
  pure (frame payload)

/-- The reader has these bytes to deliver, in chunks of any sizes. -/
structure Reader.Holds (r : Reader) (bytes : List Byte) : Prop where
  chunks : [] ∉ r.chunks
  bytes : r.chunks.flatten = bytes

section Reading

variable {r : Reader} {bytes rest : List Byte} {n : Nat}
variable {cs : List (List Byte)}

theorem leftOver_flatten (c : List Byte) (cs : List (List Byte)) :
    (leftOver c cs).flatten = c ++ cs.flatten := by
  unfold leftOver
  split
  · simp [*]
  · rfl

theorem nil_not_mem_leftOver (h : [] ∉ cs) (c : List Byte) :
    [] ∉ leftOver c cs := by
  unfold leftOver
  split
  · exact h
  · simp [*, eq_comm]

theorem takeExact_append (h : [] ∉ cs) (hbytes : cs.flatten = bytes ++ rest) :
    ∃ cs', takeExact bytes.length cs = (some bytes, cs') ∧ [] ∉ cs' ∧ cs'.flatten = rest := by
  induction cs generalizing bytes with
  | nil =>
    obtain ⟨rfl, rfl⟩ : bytes = [] ∧ rest = [] := by simpa using hbytes
    exact ⟨[], rfl, h, rfl⟩
  | cons c cs ih =>
    obtain ⟨hc, hcs⟩ : c ≠ [] ∧ [] ∉ cs := by simpa [eq_comm] using h
    rw [takeExact]
    by_cases hzero : bytes.length = 0
    · obtain rfl := length_eq_zero_iff.mp hzero
      exact ⟨c :: cs, rfl, h, hbytes⟩
    · rw [if_neg hzero, if_neg hc]
      rcases append_eq_append_iff.mp hbytes with ⟨tail, rfl, htail⟩ | ⟨past, rfl, rfl⟩
      · by_cases hin : (c ++ tail).length ≤ c.length
        · obtain rfl : tail = [] := by
            rw [length_append] at hin
            exact length_eq_zero_iff.mp (by omega)
          exact ⟨cs, by simp [leftOver], hcs, htail⟩
        · obtain ⟨cs', htake, hchunks, hrest⟩ := ih hcs htail
          rw [if_neg hin, length_append, Nat.add_sub_cancel_left, htake]
          exact ⟨cs', rfl, hchunks, hrest⟩
      · rw [if_pos (by simp), take_left, drop_left]
        exact ⟨_, rfl, nil_not_mem_leftOver hcs past, leftOver_flatten past cs⟩

theorem readExact_append (h : r.Holds (bytes ++ rest)) :
    ∃ r', readExact bytes.length r = .ok bytes r' ∧ r'.Holds rest ∧ r'.buffers = r.buffers := by
  obtain ⟨cs, htake, hchunks, hrest⟩ := takeExact_append h.chunks h.bytes
  exact ⟨{ r with chunks := cs }, by rw [readExact, htake], ⟨hchunks, hrest⟩, rfl⟩

theorem skipSentinels_cons {b : Byte} (h : [] ∉ cs)
    (hbytes : cs.flatten.dropWhile (· = 0xFF) = b :: rest) :
    ∃ cs', skipSentinels cs = (some b, cs') ∧ [] ∉ cs' ∧ cs'.flatten = rest := by
  induction cs with
  | nil => cases hbytes
  | cons c cs ih =>
    obtain ⟨hc, hcs⟩ : c ≠ [] ∧ [] ∉ cs := by simpa [eq_comm] using h
    rw [flatten_cons, dropWhile_append] at hbytes
    rw [skipSentinels, if_neg hc]
    cases hdrop : c.dropWhile (· = 0xFF) with
    | nil =>
      rw [hdrop] at hbytes
      exact ih hcs hbytes
    | cons b' past =>
      rw [hdrop] at hbytes
      cases hbytes
      exact ⟨_, rfl, nil_not_mem_leftOver hcs past, leftOver_flatten past cs⟩

theorem firstByte_cons {b : Byte} (hb : b ≠ 0xFF) {k : Nat}
    (h : r.Holds (List.replicate k 0xFF ++ b :: rest)) :
    ∃ r', firstByte r = .ok b r' ∧ r'.Holds rest ∧ r'.buffers = r.buffers := by
  have hdrop : r.chunks.flatten.dropWhile (· = 0xFF) = b :: rest := by
    rw [h.bytes, dropWhile_append_of_pos (by simp), dropWhile_cons_of_neg]
    simpa using hb
  obtain ⟨cs, hskip, hchunks, hrest⟩ := skipSentinels_cons h.chunks hdrop
  exact ⟨{ r with chunks := cs }, by rw [firstByte, hskip], ⟨hchunks, hrest⟩, rfl⟩

theorem readFrame_at_end (h : r.Holds []) : ∃ r', readFrame r = .error .io r' := by
  obtain ⟨cs, buffers⟩ := r
  cases cs with
  | nil => exact ⟨_, rfl⟩
  | cons c cs =>
    have hc : c = [] := flatten_eq_nil_iff.mp h.bytes c (by simp)
    exact absurd (by simp [hc]) h.chunks

theorem toBeBytes_eq (n : Nat) : ∃ b0 b1 b2 b3, toBeBytes n = [b0, b1, b2, b3] ∧
    b0.toNat = n / 2 ^ 24 % 256 ∧ fromBeBytes [b0, b1, b2, b3] = n % 2 ^ 32 := by
  refine ⟨_, _, _, _, rfl, BitVec.toNat_ofNat _ _, ?_⟩
  simp only [fromBeBytes, List.foldl, BitVec.toNat_ofNat]
  omega

theorem readFrame_eq {payload : List Byte} (hfits : payload.length % 2 ^ 32 ≤ maxFrameSize)
    {k : Nat} (h : r.Holds (List.replicate k 0xFF ++ frame payload ++ rest)) :
    ∃ r', readFrame r = readPayload (payload.length % 2 ^ 32) r' ∧ r'.Holds (payload ++ rest) ∧
      r'.buffers = r.buffers := by
  obtain ⟨b0, b1, b2, b3, hbe, hb0, hlen⟩ := toBeBytes_eq (payload.length % 2 ^ 32)
  rw [Nat.mod_mod] at hlen
  have hsentinel : b0 ≠ 0xFF := by
    rintro rfl
    have hmax : payload.length % 2 ^ 32 ≤ 2 ^ 24 := hfits
    rw [show (0xFF : Byte).toNat = 255 from rfl] at hb0
    omega
  rw [frame, hbe, append_assoc] at h
  obtain ⟨r1, hfirst, hr1, hbuffers1⟩ := firstByte_cons hsentinel h
  replace hr1 : r1.Holds ([b1, b2, b3] ++ (payload ++ rest)) := hr1
  obtain ⟨r2, hread, hr2, hbuffers2⟩ := readExact_append hr1
  refine ⟨r2, ?_, hr2, hbuffers2.trans hbuffers1⟩
  rw [readFrame, bind_of_ok hfirst, ← hlen]
  exact bind_of_ok hread

theorem readPayload_append {payload : List Byte} (hne : payload ≠ [])
    (hfits : payload.length ≤ maxFrameSize) (h : r.Holds (payload ++ rest)) :
    ∃ r', readPayload payload.length r = .ok payload r' ∧ r'.Holds rest ∧
      r'.buffers = payload.length :: r.buffers := by
  rw [readPayload, if_neg (by simpa using hne), if_neg (by omega)]
  exact readExact_append (r := { r with buffers := payload.length :: r.buffers })
    ⟨h.chunks, h.bytes⟩

end Reading

def readFrames : Nat → Reader → List (Except FrameError (List Byte)) × Reader
  | 0, r => ([], r)
  | n + 1, r =>
    let result : Except FrameError (List Byte) :=
      match readFrame r with
      | .ok payload _ => .ok payload
      | .error e _ => .error e
    let (results, r) := readFrames n (stateOf (readFrame r))
    (result :: results, r)

def frameStream (frames : List (Nat × List Byte)) : List Byte :=
  frames.flatMap fun (sentinels, payload) => List.replicate sentinels 0xFF ++ frame payload

theorem writeFrame_ok_iff {payload : List Byte} :
    writeFrame payload = .ok (frame payload) ↔
      payload ≠ [] ∧ payload.length % 2 ^ 32 ≤ maxFrameSize := by
  rw [writeFrame, except_unit_bind_iff, bailIf_eq_ok, except_unit_bind_iff,
    bailIf_eq_ok, Nat.not_lt]
  exact ⟨fun h => ⟨h.1, h.2.1⟩, fun h => ⟨h.1, h.2, rfl⟩⟩

def Reader.Modest (r : Reader) : Prop := ∀ size ∈ r.buffers, size ≤ maxFrameSize

theorem readFrames_modest (n : Nat) {r : Reader} (h : r.Modest) : (readFrames n r).2.Modest := by
  have : IsTrans Reader fun r r' => r.Modest → r'.Modest := ⟨fun _ _ _ hab hbc ha => hbc (hab ha)⟩
  have hexact : ∀ n, Always (fun r r' : Reader => r.Modest → r'.Modest) (readExact n) := by
    intro n r hr
    unfold readExact
    split <;> exact hr
  have hfirst : Always (fun r r' : Reader => r.Modest → r'.Modest) firstByte := by
    intro r hr
    unfold firstByte
    split <;> exact hr
  have hframe : Always (fun r r' : Reader => r.Modest → r'.Modest) readFrame := by
    refine .bind hfirst fun first => .bind (hexact 3) fun rest => ?_
    unfold readPayload
    split
    · exact .throw (fun _ => id) _
    · split
      · exact .throw (fun _ => id) _
      · refine .bind (fun r hr size hsize => ?_) fun _ => hexact _
        rcases mem_cons.mp hsize with rfl | hsize
        · omega
        · exact hr size hsize
  induction n generalizing r with
  | zero => exact h
  | succ n ih => exact ih (hframe r h)

theorem readFrame_cases {payload rest : List Byte} {k : Nat} {r : Reader}
    (haccepted : writeFrame payload = .ok (frame payload))
    (h : r.Holds (List.replicate k 0xFF ++ frame payload ++ rest)) :
    (∃ r', readFrame r = .ok payload r' ∧ r'.Holds rest) ∧ payload.length < 2 ^ 32 ∨
      (∀ r', readFrame r ≠ .ok payload r') ∧ ¬payload.length < 2 ^ 32 := by
  obtain ⟨hne, hfits⟩ := writeFrame_ok_iff.mp haccepted
  obtain ⟨r1, hread, hr1, -⟩ := readFrame_eq hfits h
  rw [hread]
  by_cases hshort : payload.length < 2 ^ 32
  · rw [Nat.mod_eq_of_lt hshort] at hfits ⊢
    obtain ⟨r2, hok, hr2, -⟩ := readPayload_append hne hfits hr1
    exact .inl ⟨⟨r2, hok, hr2⟩, hshort⟩
  · refine .inr ⟨fun r' hok => ?_, hshort⟩
    have hcut : payload.length % 2 ^ 32 < payload.length := by
      have := Nat.mod_lt payload.length (show 0 < 2 ^ 32 by decide)
      omega
    by_cases hzero : payload.length % 2 ^ 32 = 0
    · rw [hzero] at hok
      cases hok
    · -- the reader returns the first part of the payload, as long as the length field tells
      have hlen : (payload.take (payload.length % 2 ^ 32)).length = payload.length % 2 ^ 32 :=
        length_take_of_le hcut.le
      rw [← take_append_drop (payload.length % 2 ^ 32) payload, append_assoc] at hr1
      obtain ⟨r2, hpart, -⟩ := readPayload_append (ne_nil_of_length_pos (by omega))
        (by omega) hr1
      rw [hlen, hok] at hpart
      injection hpart with hpayload
      exact hcut.ne' ((congrArg List.length hpayload).trans hlen)

theorem readFrames_head {n : Nat} {r : Reader} {payload : List Byte}
    {results : List (Except FrameError (List Byte))}
    (h : (readFrames (n + 1) r).1 = .ok payload :: results) :
    ∃ r', readFrame r = .ok payload r' := by
  rw [readFrames, List.cons.injEq] at h
  cases hframe : readFrame r with
  | ok p r' =>
    rw [hframe] at h
    exact ⟨r', congrArg (EStateM.Result.ok · r') (Except.ok.inj h.1)⟩
  | error e r' =>
    rw [hframe] at h
    cases h.1

/-- The payloads are read back, and then the end of the input, exactly when all their lengths fit
into the length field; the buffers are small in any case. -/
theorem readFrames_frameStream_iff {frames : List (Nat × List Byte)}
    (haccepted : ∀ f ∈ frames, writeFrame f.2 = .ok (frame f.2)) {r : Reader}
    (h : r.Holds (frameStream frames)) (hbuffers : r.buffers = []) :
    (readFrames (frames.length + 1) r).1 = frames.map (fun f => .ok f.2) ++ [.error .io] ∧
        (readFrames (frames.length + 1) r).2.Modest ↔
      ∀ f ∈ frames, f.2.length < 2 ^ 32 := by
  rw [and_iff_left (readFrames_modest _ (by simp [Reader.Modest, hbuffers]))]
  clear hbuffers
  induction frames generalizing r with
  | nil =>
    obtain ⟨r', hend⟩ := readFrame_at_end h
    simp [readFrames, hend]
  | cons f frames ih =>
    obtain ⟨k, payload⟩ := f
    have hhead : r.Holds (List.replicate k 0xFF ++ frame payload ++ frameStream frames) := h
    obtain ⟨⟨r', hok, hr'⟩, hshort⟩ | ⟨hbad, hlong⟩ :=
      readFrame_cases (haccepted (k, payload) (by simp)) hhead
    · have htail := ih (fun f hf => haccepted f (by simp [hf])) hr'
      rw [forall_mem_cons, and_iff_right hshort, ← htail, length_cons, readFrames, hok]
      simp [stateOf]
    · refine iff_of_false (fun hread => ?_) fun hall => hlong (hall (k, payload) (by simp))
      obtain ⟨r', hok⟩ := readFrames_head hread
      exact hbad r' hok

/-- Of a payload whose length is 1 in 32 bits, one byte is read back. -/
theorem overlong_payload_cut :
    ∃ payload : List Byte, writeFrame payload = .ok (frame payload) ∧
      (readFrames 2 ⟨[frame payload], []⟩).1 ≠ [.ok payload, .error .io] := by
  obtain ⟨payload, hlen⟩ : ∃ payload : List Byte, payload.length = 2 ^ 32 + 1 :=
    ⟨List.replicate (2 ^ 32 + 1) 0, length_replicate⟩
  have haccepted : writeFrame payload = .ok (frame payload) :=
    writeFrame_ok_iff.mpr ⟨ne_nil_of_length_pos (by omega), by rw [hlen]; decide⟩
  have hholds : Reader.Holds ⟨[frame payload], []⟩
      (List.replicate 0 0xFF ++ frame payload ++ []) :=
    ⟨by simp [frame, toBeBytes], by simp⟩
  refine ⟨payload, haccepted, fun hread => ?_⟩
  obtain ⟨r', hok⟩ := readFrames_head hread
  obtain ⟨-, hshort⟩ | ⟨hbad, -⟩ := readFrame_cases haccepted hholds
  · omega
  · exact hbad r' hok

theorem readFrames_frameStream_two :
    let r : Reader := ⟨[[0xFF, 0], [0, 0], [1, 7, 0], [0, 0, 2, 8], [9]], []⟩
    (readFrames 3 r).1 = [.ok [7], .ok [8, 9], .error .io] ∧ (readFrames 3 r).2.Modest := by
  have haccepted : ∀ f ∈ [(1, [(7 : Byte)]), (0, [8, 9])], writeFrame f.2 = .ok (frame f.2) := by
    intro f hf
    exact writeFrame_ok_iff.mpr (by fin_cases hf <;> exact ⟨by simp, by decide⟩)
  exact (readFrames_frameStream_iff haccepted ⟨by decide, by decide⟩ rfl).mpr (by simp)

end Guestkit.Agent
