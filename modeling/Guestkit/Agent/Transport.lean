import Guestkit.Agent.Frame

/-! Messages of the agent's transport, written and read in one of its two framings. -/

namespace Guestkit.Agent

open Lib List

def newline : Byte := 10
def carriageReturn : Byte := 13
def syncByte : Byte := 0xFF

structure Message where
  payload : List Byte
  delimited : Bool

def writeLine (payload : List Byte) : Except FrameError (List Byte) := do
  bailIf (payload = []) (.invalidRequest "empty payload")
  pure (payload ++ if payload.getLast? = some newline then [] else [newline])

def writeDelimitedLine (payload : List Byte) : Except FrameError (List Byte) := do
  let line ← writeLine payload
  pure (syncByte :: line)

def writeMessage (lineFraming : Bool) (m : Message) : Except FrameError (List Byte) :=
  if lineFraming then
    if m.delimited then writeDelimitedLine m.payload else writeLine m.payload
  else if m.delimited then writeDelimitedLine m.payload
  else writeFrame m.payload

def writeMessages (lineFraming : Bool) : List Message → Except FrameError (List Byte)
  | [] => .ok []
  | m :: ms => do
    let bytes ← writeMessage lineFraming m
    let rest ← writeMessages lineFraming ms
    pure (bytes ++ rest)

def firstLine : List Byte → Option (List Byte × List Byte)
  | [] => none
  | b :: bytes =>
    if b = newline then some ([b], bytes)
    else (firstLine bytes).map fun (line, past) => (b :: line, past)

/-- `read_until` a newline.  `buf` is what the `BufReader` holds; a chunk is what one read into its
buffer returns, when the bytes before it are used up. -/
def readUntil : List Byte → List (List Byte) → List Byte × List Byte × List (List Byte)
  | buf, [] =>
    match firstLine buf with
    | some (line, past) => (line, past, [])
    | none => (buf, [], [])
  | buf, c :: cs =>
    match firstLine buf with
    | some (line, past) => (line, past, c :: cs)
    | none =>
      if c = [] then (buf, [], cs)
      else
        let (line, past, cs) := readUntil c cs
        (buf ++ line, past, cs)

def popIf (b : Byte) (line : List Byte) : List Byte :=
  if line.getLast? = some b then line.dropLast else line

def stripLine (line : List Byte) : List Byte :=
  popIf carriageReturn (popIf newline (line.dropWhile (· = syncByte)))

/-- `read_line`; each turn of the loop takes a byte at least. -/
def readLine : Nat → List Byte → List (List Byte) →
    Except FrameError (List Byte) × List (List Byte)
  | 0, _, cs => (.error .io, cs)
  | fuel + 1, buf, cs =>
    let (line, past, cs) := readUntil buf cs
    if line = [] then (.error .io, cs)
    else if stripLine line = [] then readLine fuel past cs
    else (.ok (stripLine line), cs)

/-- One line from a new `BufReader`: what it has read behind the line goes with it. -/
def readBuffered : ReadM (List Byte) := fun r =>
  match readLine (r.chunks.flatten.length + 1) [] r.chunks with
  | (.ok line, cs) => .ok line { r with chunks := cs }
  | (.error e, cs) => .error e { r with chunks := cs }

def readMessage (lineFraming : Bool) : ReadM (List Byte) :=
  if lineFraming then readBuffered else readFrame

/-- Reading returns the payloads of these messages, and then the end of the input. -/
def Delivers (lineFraming : Bool) : List Message → Reader → Prop
  | [], r => ∃ r', readMessage lineFraming r = .error .io r'
  | m :: ms, r => ∃ r', readMessage lineFraming r = .ok m.payload r' ∧ Delivers lineFraming ms r'

def Message.Plain (m : Message) : Prop :=
  m.payload ≠ [] ∧ ∀ b ∈ m.payload, b ≠ newline ∧ b ≠ carriageReturn ∧ b ≠ syncByte

def sentinel (m : Message) : List Byte := if m.delimited then [syncByte] else []

def lineOf (m : Message) : List Byte := sentinel m ++ m.payload ++ [newline]

def pastLine (c : List Byte) : List Byte := ((firstLine c).map Prod.snd).getD []

section Lines

variable {ms : List Message} {m : Message} {buf body tail : List Byte} {cs : List (List Byte)}

theorem sentinel_eq {b : Byte} (h : b ∈ sentinel m) : b = syncByte := by
  unfold sentinel at h
  split at h <;> simp_all

theorem writeMessage_line (h : m.Plain) : writeMessage true m = .ok (lineOf m) := by
  have hlast : m.payload.getLast? ≠ some newline := fun hlast =>
    (h.2 newline (mem_of_getLast? hlast)).1 rfl
  have hline : writeLine m.payload = .ok (m.payload ++ [newline]) := by
    rw [writeLine, bailIf, if_neg h.1, if_neg hlast]
    rfl
  unfold writeMessage writeDelimitedLine lineOf sentinel
  rw [hline]
  cases m.delimited <;> rfl

theorem stripLine_lineOf (h : m.Plain) : stripLine (lineOf m) = m.payload := by
  obtain ⟨b0, payload, hpayload⟩ := exists_cons_of_ne_nil h.1
  have hb0 : b0 ≠ syncByte := (h.2 b0 (by simp [hpayload])).2.2
  have hpast : (lineOf m).dropWhile (· = syncByte) = m.payload ++ [newline] := by
    rw [lineOf, append_assoc,
      dropWhile_append_of_pos fun b hb => by simpa using sentinel_eq hb, hpayload,
      cons_append, dropWhile_cons_of_neg (by simpa using hb0)]
  have hlast : m.payload.getLast? ≠ some carriageReturn := fun hlast =>
    (h.2 _ (mem_of_getLast? hlast)).2.1 rfl
  rw [stripLine, hpast]
  simp [popIf, hlast]

theorem firstLine_append (h : newline ∉ body) (tail : List Byte) :
    firstLine (body ++ newline :: tail) = some (body ++ [newline], tail) := by
  induction body with
  | nil => simp [firstLine]
  | cons b body ih =>
    obtain ⟨hb, hbody⟩ : newline ≠ b ∧ newline ∉ body := by simpa using h
    simp [firstLine, hb.symm, ih hbody]

theorem firstLine_of_notMem (h : newline ∉ buf) : firstLine buf = none := by
  induction buf with
  | nil => rfl
  | cons b buf ih =>
    obtain ⟨hb, hbuf⟩ : newline ≠ b ∧ newline ∉ buf := by simpa using h
    simp [firstLine, hb.symm, ih hbuf]

/-- The first line ends behind the buffer, or with it. -/
theorem line_ends {rest : List Byte} (hbody : newline ∉ body)
    (h : buf ++ rest = body ++ newline :: tail) (hpast : pastLine buf = []) :
    (∃ more, body = buf ++ more ∧ rest = more ++ newline :: tail) ∨
      buf = body ++ [newline] ∧ rest = tail := by
  rcases append_eq_append_iff.mp h with ⟨more, hmore, htail⟩ | ⟨more, rfl, htail⟩
  · exact .inl ⟨more, hmore, htail⟩
  · cases more with
    | nil => exact .inl ⟨[], by simp, htail.symm⟩
    | cons b past =>
      obtain ⟨rfl, rfl⟩ := List.cons.inj htail
      obtain rfl : past = [] := by simpa [pastLine, firstLine_append hbody] using hpast
      exact .inr ⟨rfl, rfl⟩

theorem readUntil_eq (hcs : [] ∉ cs) (hbody : newline ∉ body)
    (h : buf ++ cs.flatten = body ++ newline :: tail) (hpast : ∀ c ∈ buf :: cs, pastLine c = []) :
    ∃ cs', readUntil buf cs = (body ++ [newline], [], cs') ∧ [] ∉ cs' ∧ cs'.flatten = tail ∧
      ∀ c ∈ cs', pastLine c = [] := by
  induction cs generalizing buf body with
  | nil =>
    obtain ⟨more, -, hmore⟩ | ⟨rfl, rfl⟩ := line_ends hbody h (hpast buf (by simp))
    · simp at hmore
    · exact ⟨[], by simp [readUntil, firstLine_append hbody], hcs, rfl, nofun⟩
  | cons c cs ih =>
    obtain ⟨hbuf, hcspast⟩ := forall_mem_cons.mp hpast
    obtain ⟨more, rfl, hmore⟩ | ⟨rfl, rfl⟩ := line_ends hbody h hbuf
    · obtain ⟨hc, hcs⟩ : c ≠ [] ∧ [] ∉ cs := by simpa [eq_comm] using hcs
      obtain ⟨hnone, hmore'⟩ : newline ∉ buf ∧ newline ∉ more := by simpa using hbody
      obtain ⟨cs', hread, hrest⟩ := ih hcs hmore' hmore hcspast
      exact ⟨cs', by simp [readUntil, firstLine_of_notMem hnone, hc, hread], hrest⟩
    · exact ⟨c :: cs, by simp [readUntil, firstLine_append hbody], hcs, rfl, hcspast⟩

theorem readMessage_line {r : Reader} (hplain : m.Plain) (h : r.Holds (lineOf m ++ tail))
    (hpast : ∀ c ∈ r.chunks, pastLine c = []) :
    ∃ r', readMessage true r = .ok m.payload r' ∧ r'.Holds tail ∧
      ∀ c ∈ r'.chunks, pastLine c = [] := by
  have hbody : newline ∉ sentinel m ++ m.payload := by
    intro hmem
    rcases mem_append.mp hmem with hmem | hmem
    · exact absurd (sentinel_eq hmem) (by decide)
    · exact (hplain.2 _ hmem).1 rfl
  have hbytes : [] ++ r.chunks.flatten = sentinel m ++ m.payload ++ newline :: tail := by
    simp [h.bytes, lineOf]
  obtain ⟨cs, hread, hcs, htail, hpast'⟩ := readUntil_eq h.chunks hbody hbytes
    (forall_mem_cons.mpr ⟨rfl, hpast⟩)
  have hline : readLine (r.chunks.flatten.length + 1) [] r.chunks = (.ok m.payload, cs) := by
    have hstrip : stripLine (sentinel m ++ m.payload ++ [newline]) = m.payload :=
      stripLine_lineOf hplain
    simp only [readLine, hread, hstrip, if_neg hplain.1]
    simp
  refine ⟨{ r with chunks := cs }, ?_, ⟨hcs, htail⟩, hpast'⟩
  change readBuffered r = _
  rw [readBuffered, hline]

end Lines

/-- What a device may hand out of the bytes.  In line framing each read is for the 8 KiB of a
`BufReader`. -/
structure Device (lineFraming : Bool) (bytes : List Byte) (r : Reader) : Prop where
  holds : r.Holds bytes
  reads : lineFraming = true → ∀ c ∈ r.chunks, c.length ≤ 8 * 1024

/-- In line framing no read goes on behind a line; in length framing no message is delimited, and
the lengths fit into their field. -/
def Clean (lineFraming : Bool) (ms : List Message) (r : Reader) : Prop :=
  if lineFraming then ∀ c ∈ r.chunks, pastLine c = []
  else ∀ m ∈ ms, m.delimited = false ∧ m.payload.length < 2 ^ 32

theorem readMessage_clean {lineFraming : Bool} {m : Message} {ms : List Message} {r : Reader}
    {first rest : List Byte} (hplain : m.Plain) (hfirst : writeMessage lineFraming m = .ok first)
    (h : r.Holds (first ++ rest)) (hclean : Clean lineFraming (m :: ms) r) :
    ∃ r', readMessage lineFraming r = .ok m.payload r' ∧ r'.Holds rest ∧
      Clean lineFraming ms r' := by
  cases lineFraming with
  | true =>
    cases (writeMessage_line hplain).symm.trans hfirst
    exact readMessage_line hplain h hclean
  | false =>
    obtain ⟨⟨hdelimited, hshort⟩, hms⟩ := forall_mem_cons.mp hclean
    have hframe : writeFrame m.payload = .ok first := by
      simpa [writeMessage, hdelimited] using hfirst
    obtain rfl : first = frame m.payload := by
      rw [writeFrame, except_unit_bind_iff, except_unit_bind_iff] at hframe
      exact (Except.ok.inj hframe.2.2).symm
    obtain ⟨⟨r', hok, hr'⟩, -⟩ | ⟨-, hlong⟩ := readFrame_cases (k := 0) hframe h
    · exact ⟨r', hok, hr', hms⟩
    · exact absurd hshort hlong

theorem delivers_of_clean {lineFraming : Bool} {ms : List Message} (hplain : ∀ m ∈ ms, m.Plain)
    {bytes : List Byte} (hwritten : writeMessages lineFraming ms = .ok bytes) {r : Reader}
    (h : Device lineFraming bytes r) (hclean : Clean lineFraming ms r) :
    Delivers lineFraming ms r := by
  replace h := h.holds
  induction ms generalizing r bytes with
  | nil =>
    cases hwritten
    obtain ⟨cs, buffers⟩ := r
    cases cs with
    | nil => cases lineFraming <;> exact ⟨_, rfl⟩
    | cons c cs =>
      exact absurd (by simp [flatten_eq_nil_iff.mp h.bytes c (by simp)]) h.chunks
  | cons m ms ih =>
    obtain ⟨hm, hms⟩ := forall_mem_cons.mp hplain
    obtain ⟨first, hfirst, hwritten⟩ := except_ok_bind_iff.mp hwritten
    obtain ⟨rest, hrest, hbytes⟩ := except_ok_bind_iff.mp hwritten
    cases hbytes
    obtain ⟨r', hread, hr', hclean'⟩ := readMessage_clean hm hfirst h hclean
    exact ⟨r', hread, ih hms hrest hclean' hr'⟩

/-- Two lines come in one read, and the second is lost. -/
theorem second_line_lost :
    writeMessages true [⟨[97], false⟩, ⟨[98], false⟩] = .ok [97, 10, 98, 10] ∧
      ¬Delivers true [⟨[97], false⟩, ⟨[98], false⟩] ⟨[[97, 10, 98, 10]], []⟩ := by
  refine ⟨rfl, fun ⟨r, hfirst, hrest⟩ => ?_⟩
  have hread : readMessage true ⟨[[97, 10, 98, 10]], []⟩ = .ok [97] ⟨[], []⟩ := rfl
  cases hread.symm.trans hfirst
  obtain ⟨r', hsecond, -⟩ := hrest
  cases hsecond

theorem delivers_of_clean_two :
    Delivers true [⟨[97], false⟩, ⟨[98], true⟩] ⟨[[97], [10], [0xFF, 98, 10]], []⟩ := by
  have hwritten : writeMessages true [⟨[97], false⟩, ⟨[98], true⟩] =
      .ok [97, 10, 0xFF, 98, 10] := rfl
  refine delivers_of_clean ?_ hwritten ⟨⟨by decide, rfl⟩, by decide⟩ ?_
  · intro m hm
    rcases mem_pair.mp hm with rfl | rfl <;> exact ⟨by decide, by decide⟩
  · simp only [Clean, if_true]
    decide

end Guestkit.Agent
