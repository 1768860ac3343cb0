/-
# The frame parser of the status panel

`panelParserFeed` collects the bytes of a serial link, finds frames by their magic bytes and
hands those with a right CRC to a callback.  When a frame turns out to be none (its CRC is
wrong, its length too large, or it stays incomplete for half a second) the parser scans the
bytes it holds for the next magic.

The inner loop is modelled one pass at a time (`parserStep`); a frame with a right CRC that it
takes out of the buffer is recorded together with the bytes left behind it.  The callback sees
those of the records that have the protocol version and a known type.
-/
import Mathlib.Data.List.Basic
import SolariNet.Panel.Protocol

namespace SolariNet

open List

structure PanelParser where
  buf : Bytes
  lastByteMs : UInt32
  crcErrors : UInt32
  resyncs : UInt32

def panelParserInit : PanelParser := ⟨[], 0, 0, 0⟩

structure PanelCall where
  type : UInt8
  payload : Bytes
  deriving DecidableEq, Repr

structure Taken where
  frame : Bytes
  rest : Bytes
  deriving DecidableEq, Repr

def payloadLen (b : Bytes) : Nat := (readLe16 b 4).toNat

def frameTotal (b : Bytes) : Nat := panelHdrSize + payloadLen b + panelCrcSize

def Taken.call (t : Taken) : Option PanelCall :=
  if t.frame.getD 2 0 = panelProtoVersion ∧ knownType (t.frame.getD 3 0) = true then
    some ⟨t.frame.getD 3 0, (t.frame.drop panelHdrSize).take (payloadLen t.frame)⟩
  else none

def panelCalls (ts : List Taken) : List PanelCall := ts.filterMap Taken.call

/-! ## The parser -/

def findMagic : Bytes → Option Bytes
  | a :: b :: t =>
    if a = panelMagic0 ∧ b = panelMagic1 then some (a :: b :: t) else findMagic (b :: t)
  | _ => none

/-- What `parserResync` leaves in the buffer: the rest from a pair of magic bytes on, or a last
byte that may begin one. -/
def resyncBuf (b : Bytes) (start : Nat) : Bytes :=
  match findMagic (b.drop start) with
  | some t => t
  | none => if b.length > start ∧ b.getLast? = some panelMagic0 then [panelMagic0] else []

def parserResync (p : PanelParser) (start : Nat) : PanelParser :=
  { p with buf := resyncBuf p.buf start, resyncs := p.resyncs + 1 }

/-- One pass of the inner loop; `none` is its `break`. -/
def parserStep (p : PanelParser) : Option (PanelParser × List Taken) :=
  if p.buf.length < panelHdrSize then none
  else if payloadLen p.buf > panelMaxPayload then some (parserResync p 1, [])
  else if p.buf.length < frameTotal p.buf then none
  else if readLe16 p.buf (panelHdrSize + payloadLen p.buf) ≠
      panelCrc16 ((p.buf.drop 2).take (4 + payloadLen p.buf)) then
    some (parserResync { p with crcErrors := p.crcErrors + 1 } 1, [])
  else
    some ({ p with buf := p.buf.drop (frameTotal p.buf) },
      [⟨p.buf.take (frameTotal p.buf), p.buf.drop (frameTotal p.buf)⟩])

def parserDrain : Nat → PanelParser → PanelParser × List Taken
  | 0, p => (p, [])
  | n + 1, p =>
    match parserStep p with
    | none => (p, [])
    | some (p', ts) => ((parserDrain n p').1, ts ++ (parserDrain n p').2)

/-- A byte enters the buffer: only magic bytes at the first two places. -/
def parserAccept (p : PanelParser) (b : UInt8) (nowMs : UInt32) : PanelParser :=
  match p.buf with
  | [] => { p with buf := if b = panelMagic0 then [b] else [], lastByteMs := nowMs }
  | [a] =>
    { p with
      buf := if b = panelMagic1 then [a, b] else if b ≠ panelMagic0 then [] else [a]
      lastByteMs := nowMs }
  | buf => { p with buf := buf ++ [b], lastByteMs := nowMs }

def feedBytes (nowMs : UInt32) : PanelParser → Bytes → PanelParser × List Taken
  | p, [] => (p, [])
  | p, b :: bs =>
    let q := parserAccept p b nowMs
    let d := parserDrain q.buf.length q
    let r := feedBytes nowMs d.1 bs
    (r.1, d.2 ++ r.2)

def parserTimeout (p : PanelParser) (nowMs : UInt32) : PanelParser :=
  if p.buf ≠ [] ∧ nowMs - p.lastByteMs > panelFrameTimeoutMs then parserResync p 1 else p

def panelParserFeed (p : PanelParser) (bytes : Bytes) (nowMs : UInt32) : PanelParser × List Taken :=
  feedBytes nowMs (parserTimeout p nowMs) bytes

def panelParserRun : PanelParser → List (Bytes × UInt32) → PanelParser × List Taken
  | p, [] => (p, [])
  | p, (bytes, nowMs) :: feeds =>
    let d := panelParserFeed p bytes nowMs
    let r := panelParserRun d.1 feeds
    (r.1, d.2 ++ r.2)

/-! ## Resync -/

/-- Nothing, a byte that may begin a magic, or a magic. -/
def Aligned (b : Bytes) : Prop :=
  b = [] ∨ b = [panelMagic0] ∨ ∃ t, b = panelMagic0 :: panelMagic1 :: t

variable {b bs s : Bytes} {ts : List Taken} {n : Nat} {c : PanelCall} {nowMs : UInt32}

theorem findMagic_eq_some (h : findMagic b = some t) :
    (∃ x, b = x ++ t) ∧ ∃ u, t = panelMagic0 :: panelMagic1 :: u := by
  induction b with
  | nil => simp [findMagic] at h
  | cons a b ih =>
    cases b with
    | nil => simp [findMagic] at h
    | cons c b =>
      rw [findMagic] at h
      split at h
      · next hm =>
        cases h
        rw [hm.1, hm.2]
        exact ⟨⟨[], rfl⟩, b, rfl⟩
      · obtain ⟨⟨x, hx⟩, hu⟩ := ih h
        exact ⟨⟨a :: x, by rw [hx]; rfl⟩, hu⟩

theorem resyncBuf_aligned (b : Bytes) (start : Nat) : Aligned (resyncBuf b start) := by
  unfold resyncBuf
  split
  · next t ht => exact .inr (.inr (findMagic_eq_some ht).2)
  split
  · exact .inr (.inl rfl)
  · exact .inl rfl

theorem resyncBuf_suffix (b : Bytes) (start : Nat) (hs : start ≤ b.length) :
    ∃ x, b = x ++ resyncBuf b start ∧ start ≤ x.length := by
  unfold resyncBuf
  split
  · next t ht =>
    obtain ⟨⟨x, hx⟩, _⟩ := findMagic_eq_some ht
    refine ⟨b.take start ++ x, ?_, ?_⟩
    · rw [append_assoc, ← hx, take_append_drop]
    · rw [length_append, length_take]
      omega
  · split
    · next h =>
      refine ⟨b.dropLast, (List.dropLast_append_getLast? _ h.2).symm, ?_⟩
      rw [length_dropLast]
      omega
    · exact ⟨b, (append_nil b).symm, hs⟩

theorem length_resyncBuf (hb : b ≠ []) : (resyncBuf b 1).length < b.length := by
  obtain ⟨x, hx, hl⟩ := resyncBuf_suffix b 1 (length_pos_iff.2 hb)
  have h := congrArg List.length hx
  rw [length_append] at h
  omega

/-! ## One pass of the loop -/

variable {p p' : PanelParser} {cs : List PanelCall} {stream : Bytes}

theorem parserStep_cases (h : parserStep p = some (p', ts)) : panelHdrSize ≤ p.buf.length ∧
      ((ts = [] ∧ p'.buf = resyncBuf p.buf 1 ∧
          (payloadLen p.buf ≤ panelMaxPayload → frameTotal p.buf ≤ p.buf.length ∧
            readLe16 p.buf (panelHdrSize + payloadLen p.buf) ≠
              panelCrc16 ((p.buf.drop 2).take (4 + payloadLen p.buf)))) ∨
        (payloadLen p.buf ≤ panelMaxPayload ∧ frameTotal p.buf ≤ p.buf.length ∧
          readLe16 p.buf (panelHdrSize + payloadLen p.buf) =
            panelCrc16 ((p.buf.drop 2).take (4 + payloadLen p.buf)) ∧
          p'.buf = p.buf.drop (frameTotal p.buf) ∧
          ts = [⟨p.buf.take (frameTotal p.buf), p.buf.drop (frameTotal p.buf)⟩])) := by
  obtain ⟨hhdr, h⟩ := Option.ite_none_left_eq_some.1 h
  refine ⟨Nat.le_of_not_lt hhdr, ?_⟩
  split at h
  · next hmax =>
    cases h
    exact .inl ⟨rfl, rfl, fun hle => absurd hmax (Nat.not_lt.2 hle)⟩
  next hmax =>
  obtain ⟨htot, h⟩ := Option.ite_none_left_eq_some.1 h
  split at h
  · next hcrc =>
    cases h
    exact .inl ⟨rfl, rfl, fun _ => ⟨Nat.le_of_not_lt htot, hcrc⟩⟩
  · next hcrc =>
    cases h
    exact .inr ⟨Nat.le_of_not_lt hmax, Nat.le_of_not_lt htot, not_not.1 hcrc, rfl, rfl⟩

theorem length_parserStep (h : parserStep p = some (p', ts)) : p'.buf.length < p.buf.length := by
  obtain ⟨hhdr, ⟨_, hb, _⟩ | ⟨_, _, _, hb, _⟩⟩ := parserStep_cases h
  · rw [hb]
    exact length_resyncBuf (length_pos_iff.1 (by unfold panelHdrSize at hhdr; omega))
  rw [hb, length_drop]
  unfold frameTotal panelHdrSize at *
  omega

theorem parserDrain_settled (hn : p.buf.length ≤ n) : parserStep (parserDrain n p).1 = none := by
  induction n generalizing p with
  | zero =>
    have hp : p.buf.length < panelHdrSize := by unfold panelHdrSize; omega
    rw [parserDrain, parserStep, if_pos hp]
  | succ n ih =>
    unfold parserDrain
    cases hs : parserStep p with
    | none => exact hs
    | some r =>
      exact ih (by have := length_parserStep hs; omega)

/-! ## Frames of the stream -/

structure IsFrame (f : Bytes) (c : PanelCall) : Prop where
  magic : ∃ t, f = panelMagic0 :: panelMagic1 :: t
  version : f.getD 2 0 = panelProtoVersion
  type : f.getD 3 0 = c.type
  known : knownType c.type = true
  length : f.length = panelHdrSize + c.payload.length + panelCrcSize
  lengthField : (readLe16 f 4).toNat = c.payload.length
  bounded : c.payload.length ≤ panelMaxPayload
  payload : (f.drop panelHdrSize).take c.payload.length = c.payload
  crc : readLe16 f (panelHdrSize + c.payload.length) =
    panelCrc16 ((f.drop 2).take (4 + c.payload.length))

/-- The invocations `cs` are frames that lie in the stream one behind the other, with any
bytes between them. -/
inductive Carved : Bytes → List PanelCall → Prop where
  | nil (s : Bytes) : Carved s []
  | cons {f rest : Bytes} {c : PanelCall} {cs : List PanelCall} (gap : Bytes) (hf : IsFrame f c)
      (h : Carved rest cs) : Carved (gap ++ f ++ rest) (c :: cs)

theorem Carved.append (h : Carved s cs) (t : Bytes) : Carved (s ++ t) cs := by
  induction h with
  | nil s => exact .nil _
  | cons gap hf _ ih =>
    rw [append_assoc]
    exact .cons gap hf ih

theorem Carved.snoc (h : Carved s cs) (hf : IsFrame f c) :
    Carved (s ++ f) (cs ++ [c]) := by
  induction h with
  | nil s =>
    have := Carved.cons s hf (.nil [])
    rwa [append_nil] at this
  | cons gap hf' _ ih =>
    rw [append_assoc]
    exact .cons gap hf' ih

def Tracks (stream : Bytes) (cs : List PanelCall) (p : PanelParser) : Prop :=
  ∃ done, stream = done ++ p.buf ∧ Carved done cs ∧ Aligned p.buf

theorem Taken.isFrame (ha : Aligned b) (hmax : payloadLen b ≤ panelMaxPayload)
    (htot : frameTotal b ≤ b.length) (hcrc : readLe16 b (panelHdrSize + payloadLen b) =
      panelCrc16 ((b.drop 2).take (4 + payloadLen b)))
    (hc : Taken.call ⟨b.take (frameTotal b), b.drop (frameTotal b)⟩ = some c) :
    IsFrame (b.take (frameTotal b)) c := by
  have hlen : (readLe16 (b.take (frameTotal b)) 4).toNat = payloadLen b := by
    rw [readLe16_take (by unfold frameTotal panelHdrSize; omega)]
    rfl
  unfold Taken.call payloadLen at hc
  simp only [hlen] at hc
  split at hc
  · next hk =>
    cases hc
    have hpl : (((b.take (frameTotal b)).drop panelHdrSize).take (payloadLen b)).length =
        payloadLen b := by
      rw [length_take, length_drop, length_take]
      unfold frameTotal at *
      omega
    refine ⟨?_, hk.1, rfl, hk.2, ?_, ?_, ?_, ?_, ?_⟩
    · obtain rfl | rfl | ⟨t, rfl⟩ := ha
      · simp [frameTotal, panelHdrSize] at htot
      · simp only [frameTotal, panelHdrSize, length_singleton] at htot
        omega
      · refine ⟨t.take (frameTotal (panelMagic0 :: panelMagic1 :: t) - 2), ?_⟩
        rfl
    · rw [hpl, length_take, Nat.min_eq_left htot]
      rfl
    · rw [hpl, hlen]
    · rw [hpl]
      exact hmax
    · rw [hpl]
    · rw [hpl, readLe16_take (by unfold frameTotal panelHdrSize panelCrcSize; omega), hcrc,
        drop_take, take_take]
      congr 2
      unfold frameTotal panelHdrSize panelCrcSize
      omega
  · cases hc

theorem Tracks.resync (h : Tracks stream cs p) (hb : ∃ x, p.buf = x ++ b) (ha : Aligned b)
    (hp : p'.buf = b) : Tracks stream cs p' := by
  obtain ⟨done, hs, hcs, _⟩ := h
  obtain ⟨x, hx⟩ := hb
  refine ⟨done ++ x, ?_, hcs.append x, hp ▸ ha⟩
  rw [hp, hs, hx, append_assoc]

theorem Tracks.step (h : Tracks stream cs p) (hs : parserStep p = some (p', ts))
    (ha : ∀ t ∈ ts, Aligned t.rest) : Tracks stream (cs ++ panelCalls ts) p' := by
  obtain ⟨hhdr, ⟨rfl, hb, _⟩ | ⟨hmax, htot, hcrc, hb, rfl⟩⟩ := parserStep_cases hs
  · obtain ⟨x, hx, _⟩ := resyncBuf_suffix p.buf 1 (by unfold panelHdrSize at hhdr; omega)
    rw [show panelCalls [] = [] from rfl, append_nil]
    exact h.resync ⟨x, hx⟩ (resyncBuf_aligned _ _) hb
  obtain ⟨done, hst, hcs, hal⟩ := h
  have hrest := ha _ mem_cons_self
  refine ⟨done ++ p.buf.take (frameTotal p.buf), ?_, ?_, hb ▸ hrest⟩
  · rw [hb, append_assoc, take_append_drop, hst]
  -- an unknown frame is skipped, a known one is the next invocation
  cases hc : Taken.call ⟨p.buf.take (frameTotal p.buf), p.buf.drop (frameTotal p.buf)⟩ with
  | none =>
    rw [panelCalls, filterMap_cons_none hc, filterMap_nil, append_nil]
    exact hcs.append _
  | some c =>
    rw [panelCalls, filterMap_cons_some hc]
    exact hcs.snoc (Taken.isFrame hal hmax htot hcrc hc)

theorem panelCalls_append (ts us : List Taken) :
    panelCalls (ts ++ us) = panelCalls ts ++ panelCalls us := filterMap_append

theorem Tracks.drain (h : Tracks stream cs p) (ha : ∀ t ∈ (parserDrain n p).2, Aligned t.rest) :
    Tracks stream (cs ++ panelCalls (parserDrain n p).2) (parserDrain n p).1 := by
  induction n generalizing p cs with
  | zero => simpa [parserDrain, panelCalls] using h
  | succ n ih =>
    unfold parserDrain at ha ⊢
    cases hs : parserStep p with
    | none => simpa [panelCalls] using h
    | some r =>
      simp only [hs, mem_append] at ha ⊢
      have hstep := h.step hs fun t ht => ha t (.inl ht)
      rw [panelCalls_append, ← append_assoc]
      exact ih hstep fun t ht => ha t (.inr ht)

theorem parserAccept_aligned (h : Aligned p.buf) (c : UInt8) (nowMs : UInt32) :
    (parserAccept p c nowMs).buf <:+ p.buf ++ [c] ∧ Aligned (parserAccept p c nowMs).buf := by
  obtain hb | hb | ⟨t, hb⟩ := h
  · by_cases hm : c = panelMagic0
    · simp [parserAccept, hb, hm, Aligned]
    · simp [parserAccept, hb, hm, Aligned]
  · by_cases hm : c = panelMagic1
    · simp [parserAccept, hb, hm, Aligned]
    by_cases hm0 : c = panelMagic0
    · have hne : panelMagic0 ≠ panelMagic1 := by decide
      simp only [parserAccept, hb, hm0]
      exact ⟨⟨[panelMagic0], rfl⟩, .inr (.inl rfl)⟩
    · simp [parserAccept, hb, hm, hm0, Aligned]
  · exact ⟨by simp [parserAccept, hb], .inr (.inr ⟨t ++ [c], by simp [parserAccept, hb]⟩)⟩

section
variable (h : Tracks stream cs p)
include h

theorem Tracks.accept (b : UInt8) (nowMs : UInt32) :
    Tracks (stream ++ [b]) cs (parserAccept p b nowMs) := by
  obtain ⟨done, rfl, hcs, ha⟩ := h
  obtain ⟨⟨x, hx⟩, hb⟩ := parserAccept_aligned ha b nowMs
  refine ⟨done ++ x, ?_, hcs.append x, hb⟩
  rw [append_assoc, append_assoc, hx]

theorem Tracks.feedBytes (ha : ∀ t ∈ (feedBytes nowMs p bs).2, Aligned t.rest) :
    Tracks (stream ++ bs) (cs ++ panelCalls (SolariNet.feedBytes nowMs p bs).2)
      (SolariNet.feedBytes nowMs p bs).1 := by
  induction bs generalizing p stream cs with
  | nil => simpa [SolariNet.feedBytes, panelCalls] using h
  | cons b bs ih =>
    simp only [SolariNet.feedBytes, mem_append] at ha ⊢
    have hdrain := (h.accept b nowMs).drain fun t ht => ha t (.inl ht)
    have hrest := ih hdrain fun t ht => ha t (.inr ht)
    rwa [append_assoc, singleton_append, append_assoc, ← panelCalls_append] at hrest

theorem Tracks.feed (ha : ∀ t ∈ (panelParserFeed p bs nowMs).2, Aligned t.rest) :
    Tracks (stream ++ bs) (cs ++ panelCalls (panelParserFeed p bs nowMs).2)
      (panelParserFeed p bs nowMs).1 := by
  refine Tracks.feedBytes ?_ ha
  unfold parserTimeout
  split
  · next hb =>
    obtain ⟨x, hx, _⟩ := resyncBuf_suffix p.buf 1 (length_pos_iff.2 hb.1)
    exact h.resync ⟨x, hx⟩ (resyncBuf_aligned _ _) rfl
  · exact h

end

def streamOf (feeds : List (Bytes × UInt32)) : Bytes := feeds.flatMap Prod.fst

theorem Tracks.run {feeds : List (Bytes × UInt32)} (h : Tracks stream cs p)
    (ha : ∀ t ∈ (panelParserRun p feeds).2, Aligned t.rest) :
    Tracks (stream ++ streamOf feeds) (cs ++ panelCalls (panelParserRun p feeds).2)
      (panelParserRun p feeds).1 := by
  induction feeds generalizing p stream cs with
  | nil => simpa [panelParserRun, panelCalls, streamOf] using h
  | cons f feeds ih =>
    simp only [panelParserRun, mem_append] at ha ⊢
    have hfeed := h.feed fun t ht => ha t (.inl ht)
    have hrest := ih hfeed fun t ht => ha t (.inr ht)
    rw [append_assoc, append_assoc, ← panelCalls_append] at hrest
    exact hrest

/-- **Dispatch soundness.** If the bytes left behind each frame the parser takes out are aligned,
the invocations of the callback are disjoint frames of the stream, in order. -/
theorem panelParserRun_carved (feeds : List (Bytes × UInt32))
    (ha : ∀ t ∈ (panelParserRun panelParserInit feeds).2, Aligned t.rest) :
    Carved (streamOf feeds) (panelCalls (panelParserRun panelParserInit feeds).2) := by
  have h0 : Tracks [] [] panelParserInit := ⟨[], rfl, .nil [], .inl rfl⟩
  obtain ⟨done, hs, hcs, _⟩ := h0.run ha
  rw [nil_append] at hs hcs
  rw [hs]
  exact hcs.append _

def pingFrame : Bytes := [0xA5, 0x53, 0x01, 0x02, 0x00, 0x00, 0x14, 0x9C]

theorem panelParserRun_carved_two :
    (∀ t ∈ (panelParserRun panelParserInit [(pingFrame ++ [0x00], 10), (pingFrame, 20)]).2,
        Aligned t.rest) ∧
      Carved (streamOf [(pingFrame ++ [0x00], 10), (pingFrame, 20)])
        (panelCalls
          (panelParserRun panelParserInit [(pingFrame ++ [0x00], 10), (pingFrame, 20)]).2) := by
  have hrun : (panelParserRun panelParserInit [(pingFrame ++ [0x00], 10), (pingFrame, 20)]).2 =
      [⟨pingFrame, []⟩, ⟨pingFrame, []⟩] := by decide +kernel
  have ha : ∀ t ∈ (panelParserRun panelParserInit [(pingFrame ++ [0x00], 10), (pingFrame, 20)]).2,
      Aligned t.rest := by
    rw [hrun]
    simp [Aligned]
  exact ⟨ha, panelParserRun_carved _ ha⟩

/-- A frame header whose CRC will be wrong, a `PING` inside it, and eight bytes that are a
`PING` but for the magic. -/
def brokenStream : Bytes :=
  [0xA5, 0x53, 0x01, 0x01, 0x0E, 0x00] ++ pingFrame ++
    [0x00, 0x00, 0x01, 0x02, 0x00, 0x00, 0x14, 0x9C]

theorem Carved.second_magic (h : Carved s (c :: d :: cs)) :
    ∃ k, 8 ≤ k ∧ s[k]? = some panelMagic0 ∧ s[k + 1]? = some panelMagic1 := by
  cases h with
  | @cons f rest _ _ gap hf h =>
    cases h with
    | @cons f' rest' _ _ gap' hf' _ =>
      obtain ⟨t, rfl⟩ := hf'.magic
      have hs : gap ++ f ++ (gap' ++ (panelMagic0 :: panelMagic1 :: t) ++ rest') =
          (gap ++ f ++ gap') ++ panelMagic0 :: panelMagic1 :: (t ++ rest') := by simp
      rw [hs]
      refine ⟨(gap ++ f ++ gap').length, ?_, ?_, ?_⟩
      · have hl := hf.length
        simp only [length_append, panelHdrSize, panelCrcSize] at hl ⊢
        omega
      · rw [List.getElem?_append_right (le_refl _), Nat.sub_self]
        rfl
      · rw [List.getElem?_append_right (Nat.le_add_right _ 1), Nat.add_sub_cancel_left]
        rfl

/-- The parser finds the `PING` inside the broken frame, hands it out, and then hands out the
eight bytes behind it, which have no magic: the invocations are not frames of the stream. -/
theorem leftover_without_magic :
    panelCalls (panelParserRun panelParserInit [(brokenStream, 10)]).2 =
        [⟨PanelFt.ping, []⟩, ⟨PanelFt.ping, []⟩] ∧
      ¬ Carved (streamOf [(brokenStream, 10)])
        (panelCalls (panelParserRun panelParserInit [(brokenStream, 10)]).2) := by
  have hrun : panelCalls (panelParserRun panelParserInit [(brokenStream, 10)]).2 =
      [⟨PanelFt.ping, []⟩, ⟨PanelFt.ping, []⟩] := by decide +kernel
  refine ⟨hrun, ?_⟩
  rw [hrun]
  intro h
  obtain ⟨k, hk, h0, h1⟩ := h.second_magic
  have hlt : k < 22 := by
    obtain ⟨hlt, _⟩ := List.getElem?_eq_some_iff.1 h0
    exact hlt
  have hnone : ∀ k < 22, 8 ≤ k → (streamOf [(brokenStream, 10)])[k]? = some panelMagic0 →
      (streamOf [(brokenStream, 10)])[k + 1]? ≠ some panelMagic1 := by decide
  exact hnone k hlt hk h0 h1

end SolariNet
