/-
# The frame parser misses no frame

A stream of noise and then frames, as `panelEncodeFrame` writes them, is fed to the parser of
`SolariNet.Panel.Parser` in any chunks.  The noise may look like the start of a long frame that
swallows real ones.  The parser then waits for bytes that are frames, finds the checksum wrong
and goes on from the next magic pair it holds, so that every true start is visited.

Which frames the parser has yet to take is told by one length: the bytes it has done with never
reach past the start of the next frame (`Behind`).  Every pass keeps that,

    a resync      because the next frame's start is a magic pair, and it stops there at the latest
    a frame       because only a true start has a matching checksum

and when the passes are over fewer bytes are held than the largest frame has, which is when the
next frame must have begun.
-/
import Mathlib.Data.List.Infix
import SolariNet.Panel.Parser

namespace SolariNet

open List Lib

def panelBufSize : Nat := panelHdrSize + panelMaxPayload + panelCrcSize

/-! ## Encoded frames -/

def frameBody (type : UInt8) (payload : Bytes) : Bytes :=
  [panelProtoVersion, type] ++ writeLe16 (UInt16.ofNat payload.length) ++ payload

def panelEncodeFrame (type : UInt8) (payload : Bytes) (outCap : Nat) : Option Bytes :=
  if payload.length > panelMaxPayload ∨ outCap < panelHdrSize + payload.length + panelCrcSize then
    none
  else
    some (panelMagic0 :: panelMagic1 :: frameBody type payload ++
      writeLe16 (panelCrc16 (frameBody type payload)))

structure EncodedFrame where
  type : UInt8
  payload : Bytes
  bytes : Bytes
  encoded : ∃ outCap, panelEncodeFrame type payload outCap = some bytes

namespace EncodedFrame

def call (f : EncodedFrame) : Option PanelCall :=
  if knownType f.type = true then some ⟨f.type, f.payload⟩ else none

variable (f : EncodedFrame)

theorem fits : f.payload.length ≤ panelMaxPayload := by
  obtain ⟨cap, h⟩ := f.encoded
  obtain ⟨hle, -⟩ := Option.ite_none_left_eq_some.1 h
  exact Nat.le_of_not_lt (not_or.1 hle).1

theorem bytes_eq : f.bytes = panelMagic0 :: panelMagic1 :: frameBody f.type f.payload ++
      writeLe16 (panelCrc16 (frameBody f.type f.payload)) := by
  obtain ⟨cap, h⟩ := f.encoded
  obtain ⟨-, h⟩ := Option.ite_none_left_eq_some.1 h
  exact (Option.some.inj h).symm

theorem length_frameBody : (frameBody f.type f.payload).length = 4 + f.payload.length := by
  simp only [frameBody, length_append, length_writeLe16, length_cons, length_nil]

theorem length_bytes : f.bytes.length = panelHdrSize + f.payload.length + panelCrcSize := by
  rw [f.bytes_eq, length_append, length_writeLe16, length_cons, length_cons, f.length_frameBody]
  unfold panelHdrSize panelCrcSize
  omega

theorem payloadLen_append (r : Bytes) : payloadLen (f.bytes ++ r) = f.payload.length := by
  have hsplit : f.bytes ++ r = [panelMagic0, panelMagic1, panelProtoVersion, f.type] ++
      writeLe16 (UInt16.ofNat f.payload.length) ++
        (f.payload ++ writeLe16 (panelCrc16 (frameBody f.type f.payload)) ++ r) := by
    rw [f.bytes_eq, frameBody]
    simp only [cons_append, append_assoc]
  have hlt : f.payload.length < 65536 := lt_of_le_of_lt f.fits (by decide)
  have hread := readLe16_append (a := [panelMagic0, panelMagic1, panelProtoVersion, f.type])
    (r := f.payload ++ writeLe16 (panelCrc16 (frameBody f.type f.payload)) ++ r)
    (UInt16.ofNat f.payload.length) (rfl : _ = 4)
  rw [payloadLen, hsplit, hread, UInt16.toNat_ofNat_of_lt' hlt]

theorem frameTotal_append (r : Bytes) : frameTotal (f.bytes ++ r) = f.bytes.length := by
  rw [frameTotal, payloadLen_append, length_bytes]

theorem crc_append (r : Bytes) : readLe16 (f.bytes ++ r) (panelHdrSize + f.payload.length) =
      panelCrc16 (((f.bytes ++ r).drop 2).take (4 + f.payload.length)) := by
  have hdrop : (f.bytes ++ r).drop 2 = frameBody f.type f.payload ++
      (writeLe16 (panelCrc16 (frameBody f.type f.payload)) ++ r) := by
    rw [f.bytes_eq, append_assoc]
    rfl
  have hsplit : f.bytes ++ r = (panelMagic0 :: panelMagic1 :: frameBody f.type f.payload) ++
      writeLe16 (panelCrc16 (frameBody f.type f.payload)) ++ r := by
    rw [f.bytes_eq]
  rw [hdrop, take_left' f.length_frameBody, hsplit, readLe16_append]
  rw [length_cons, length_cons, f.length_frameBody]
  unfold panelHdrSize
  omega

theorem call_taken (rest : Bytes) : Taken.call ⟨f.bytes, rest⟩ = f.call := by
  have hver : f.bytes.getD 2 0 = panelProtoVersion := by rw [f.bytes_eq]; rfl
  have htype : f.bytes.getD 3 0 = f.type := by rw [f.bytes_eq]; rfl
  have hlen : payloadLen f.bytes = f.payload.length := by
    have h := f.payloadLen_append []
    rwa [append_nil] at h
  have hpayload : (f.bytes.drop panelHdrSize).take f.payload.length = f.payload := by
    have hdrop : f.bytes.drop panelHdrSize =
        f.payload ++ writeLe16 (panelCrc16 (frameBody f.type f.payload)) := by
      rw [f.bytes_eq]
      rfl
    rw [hdrop, take_left' rfl]
  simp only [Taken.call, hver, htype, hlen, hpayload, true_and, call]

end EncodedFrame

def frameStream (fs : List EncodedFrame) : Bytes := fs.flatMap (·.bytes)

@[simp] theorem frameStream_nil : frameStream [] = [] := rfl

@[simp] theorem frameStream_cons (f : EncodedFrame) (fs : List EncodedFrame) :
    frameStream (f :: fs) = f.bytes ++ frameStream fs := rfl

@[simp] theorem frameStream_append (fs gs : List EncodedFrame) :
    frameStream (fs ++ gs) = frameStream fs ++ frameStream gs := flatMap_append

variable {c g r y z : Bytes} {f : EncodedFrame} {fs : List EncodedFrame}

theorem aligned_of_initial (h : z <+: frameStream fs) : Aligned z := by
  cases fs with
  | nil => exact .inl (prefix_nil.1 h)
  | cons f fs =>
    rw [frameStream_cons, f.bytes_eq] at h
    rcases z with _ | ⟨a, _ | ⟨b, t⟩⟩
    · exact .inl rfl
    · rw [(cons_prefix_cons.1 h).1]
      exact .inr (.inl rfl)
    · obtain ⟨ha, hrest⟩ := cons_prefix_cons.1 h
      obtain ⟨hb, -⟩ := cons_prefix_cons.1 hrest
      exact .inr (.inr ⟨t, by rw [ha, hb]⟩)

/-! ## Candidates -/

/-- The bytes begin with a length in range and a checksum that matches, whatever the first two
are. -/
def Candidate (b : Bytes) : Prop :=
  payloadLen b ≤ panelMaxPayload ∧ frameTotal b ≤ b.length ∧
    readLe16 b (panelHdrSize + payloadLen b) = panelCrc16 ((b.drop 2).take (4 + payloadLen b))

instance (b : Bytes) : Decidable (Candidate b) := inferInstanceAs (Decidable (_ ∧ _ ∧ _))

variable {b : Bytes} {p : PanelParser}

theorem readLe16_of_initial {off : Nat} (h : b <+: c) (hoff : off + 2 ≤ b.length) :
    readLe16 c off = readLe16 b off := by
  rw [prefix_iff_eq_take.1 h, readLe16_take (by omega)]

theorem payloadLen_of_initial (h : b <+: c) (hlen : panelHdrSize ≤ b.length) :
    payloadLen c = payloadLen b :=
  congrArg UInt16.toNat (readLe16_of_initial h hlen)

theorem Candidate.of_initial (h : b <+: c) (hb : Candidate b) : Candidate c := by
  obtain ⟨hmax, htot, hcrc⟩ := hb
  have hlen : panelHdrSize ≤ b.length := by
    unfold frameTotal at htot
    omega
  have hpl := payloadLen_of_initial h hlen
  refine ⟨hpl ▸ hmax, ?_, ?_⟩
  · rw [frameTotal, hpl]
    exact htot.trans h.length_le
  have htot' : panelHdrSize + payloadLen b + 2 ≤ b.length := htot
  rw [hpl, readLe16_of_initial h htot', hcrc]
  obtain ⟨r, rfl⟩ := h
  have h2 : 2 ≤ b.length := by unfold panelHdrSize at hlen; omega
  rw [drop_append_of_le_length h2, take_append_of_le_length]
  rw [length_drop]
  unfold panelHdrSize at htot'
  omega

def TrueStart (g : Bytes) (fs : List EncodedFrame) (i : Nat) : Prop :=
  ∃ passed f left, fs = passed ++ f :: left ∧ i = g.length + (frameStream passed).length

def NoFalseStart (g : Bytes) (fs : List EncodedFrame) : Prop :=
  ∀ i, Candidate ((g ++ frameStream fs).drop i) → TrueStart g fs i

theorem findMagic_of_suffix {t : Bytes} :
    ∃ u, findMagic (y ++ panelMagic0 :: panelMagic1 :: t) = some u ∧ t.length + 2 ≤ u.length := by
  induction y with
  | nil => exact ⟨panelMagic0 :: panelMagic1 :: t, by simp [findMagic], Nat.le_refl _⟩
  | cons a y ih =>
    obtain ⟨u, hu, hlen⟩ := ih
    obtain ⟨c, rest, hy⟩ : ∃ c rest, y ++ panelMagic0 :: panelMagic1 :: t = c :: rest := by
      cases y with
      | nil => exact ⟨_, _, rfl⟩
      | cons c y => exact ⟨c, _, rfl⟩
    rw [cons_append, hy, findMagic]
    split
    · refine ⟨a :: c :: rest, rfl, ?_⟩
      have hl := congrArg List.length hy
      simp only [length_append, length_cons] at hl ⊢
      omega
    · exact ⟨u, by rw [← hy, hu], hlen⟩

theorem length_le_resyncBuf (hy : y ≠ []) (hz : Aligned z) :
    z.length ≤ (resyncBuf (y ++ z) 1).length := by
  obtain ⟨a, y', rfl⟩ := exists_cons_of_ne_nil hy
  unfold resyncBuf
  rw [cons_append, drop_succ_cons, drop_zero]
  obtain rfl | rfl | ⟨t, rfl⟩ := hz
  · exact Nat.zero_le _
  · cases hf : findMagic (y' ++ [panelMagic0]) with
    | some t =>
      obtain ⟨u, rfl⟩ := (findMagic_eq_some hf).2
      simp
    | none =>
      have hlast : (a :: (y' ++ [panelMagic0])).length > 1 ∧
          (a :: (y' ++ [panelMagic0])).getLast? = some panelMagic0 := by
        refine ⟨by simp, ?_⟩
        rw [← cons_append, List.getLast?_concat]
      simp only [if_pos hlast]
      exact Nat.le_refl _
  · obtain ⟨u, hu, hlen⟩ := findMagic_of_suffix
    rw [hu]
    exact hlen

/-! ## Behind the next frame -/

/-- `Behind g passed s b`: of the bytes `s` fed so far the parser holds the suffix `b`, and what
it has done with ends before the frame behind `passed`, right at it once a frame has passed. -/
structure Behind (g : Bytes) (passed : List EncodedFrame) (s b : Bytes) : Prop where
  suffix : b <:+ s
  before : s.length ≤ g.length + (frameStream passed).length + b.length
  exact : passed ≠ [] → s.length = g.length + (frameStream passed).length + b.length

namespace Behind

variable {g s b b' : Bytes} {passed left : List EncodedFrame}

theorem narrow (h : Behind g passed s b) (hb : b' <:+ b)
    (hkeep : (s.drop (g.length + (frameStream passed).length)).length ≤ b'.length) :
    Behind g passed s b' := by
  rw [length_drop] at hkeep
  have hle := hb.length_le
  refine ⟨hb.trans h.suffix, by omega, fun hne => ?_⟩
  have hex := h.exact hne
  omega

theorem snoc (h : Behind g passed s b) (c : UInt8) : Behind g passed (s ++ [c]) (b ++ [c]) := by
  have hbefore := h.before
  refine ⟨?_, ?_, fun hne => ?_⟩
  · obtain ⟨x, hx⟩ := h.suffix
    exact ⟨x, by rw [← hx, append_assoc]⟩
  · simp only [length_append]
    omega
  · have hex := h.exact hne
    simp only [length_append]
    omega

theorem tail_initial (hs : s <+: g ++ frameStream (passed ++ left)) :
    s.drop (g.length + (frameStream passed).length) <+: frameStream left := by
  have h := hs.drop (g.length + (frameStream passed).length)
  rwa [frameStream_append, ← append_assoc, drop_left' (by rw [length_append])] at h

section
variable (h : Behind g passed s b)
include h

theorem held_initial (hs : s <+: whole) :
    b <+: whole.drop (s.length - b.length) := by
  obtain ⟨x, rfl⟩ := h.suffix
  have hx := hs.drop x.length
  rw [drop_left' rfl] at hx
  rwa [length_append, Nat.add_sub_cancel]

theorem at_start (hs : s <+: g ++ frameStream (passed ++ left))
    (hclean : NoFalseStart g (passed ++ left)) (hb : Candidate b) :
    left ≠ [] ∧ s.length = g.length + (frameStream passed).length + b.length := by
  have hle := h.suffix.length_le
  have hbefore := h.before
  obtain ⟨passed', f, left', hfs, hpos⟩ := hclean _ (hb.of_initial (h.held_initial hs))
  have hpassed : (frameStream passed').length = (frameStream passed).length := by
    by_cases hne : passed = []
    · subst hne
      rw [frameStream_nil, length_nil] at hbefore ⊢
      omega
    · have hex := h.exact hne
      omega
  refine ⟨?_, by omega⟩
  rintro rfl
  -- with all frames passed the candidate would be behind the last one
  rw [append_nil] at hfs
  rw [hfs, frameStream_append, frameStream_cons, length_append, length_append,
    f.length_bytes] at hpassed
  unfold panelHdrSize at hpassed
  omega

theorem held_frames (hs : s <+: g ++ frameStream (passed ++ left))
    (hpos : s.length = g.length + (frameStream passed).length + b.length) :
    b <+: frameStream left := by
  have hp := h.held_initial hs
  rwa [hpos, Nat.add_sub_cancel, frameStream_append, ← append_assoc,
    drop_left' (by rw [length_append])] at hp

end

end Behind

theorem frameTotal_of_initial (h : b <+: f.bytes ++ r) (hlen : panelHdrSize ≤ b.length) :
    frameTotal b = f.bytes.length := by
  rw [frameTotal, ← payloadLen_of_initial h hlen, ← f.frameTotal_append r, frameTotal]

theorem candidate_of_initial (h : b <+: f.bytes ++ r) (hlen : panelHdrSize ≤ b.length) :
    payloadLen b ≤ panelMaxPayload ∧ (frameTotal b ≤ b.length → Candidate b) := by
  have hpl : payloadLen b = f.payload.length := by
    rw [← payloadLen_of_initial h hlen, f.payloadLen_append]
  have hmax : payloadLen b ≤ panelMaxPayload := hpl ▸ f.fits
  refine ⟨hmax, fun htot => ⟨hmax, htot, ?_⟩⟩
  rw [frameTotal_of_initial h hlen] at htot
  obtain ⟨t, rfl⟩ := prefix_of_prefix_length_le (prefix_append _ _) h htot
  rw [hpl, f.crc_append]

/-! ## The parser follows the frames -/

/-- After the bytes `s` the frames `passed` of `fs` have been dispatched as `cs`, and the parser
is behind the next one. -/
def Follows (g : Bytes) (fs : List EncodedFrame) (s : Bytes) (cs : List PanelCall)
    (p : PanelParser) : Prop :=
  ∃ passed left, fs = passed ++ left ∧ cs = passed.filterMap EncodedFrame.call ∧ Aligned p.buf ∧
    Behind g passed s p.buf

namespace Follows

variable {g s : Bytes} {fs : List EncodedFrame} {cs : List PanelCall} {p p' : PanelParser}

section
variable (h : Follows g fs s cs p)
include h

theorem resync (hs : s <+: g ++ frameStream fs)
    (hlen : panelHdrSize ≤ p.buf.length) (hp : p'.buf = resyncBuf p.buf 1)
    (hbad : payloadLen p.buf ≤ panelMaxPayload → frameTotal p.buf ≤ p.buf.length ∧
      readLe16 p.buf (panelHdrSize + payloadLen p.buf) ≠
        panelCrc16 ((p.buf.drop 2).take (4 + payloadLen p.buf))) : Follows g fs s cs p' := by
  obtain ⟨passed, left, rfl, hcs, -, hb⟩ := h
  have hne : 1 ≤ p.buf.length := by unfold panelHdrSize at hlen; omega
  have hsuffix : resyncBuf p.buf 1 <:+ p.buf := by
    obtain ⟨x, hx, -⟩ := resyncBuf_suffix p.buf 1 hne
    exact ⟨x, hx.symm⟩
  have hbefore := hb.before
  -- a resync does not happen at the next frame
  have hlt : s.length < g.length + (frameStream passed).length + p.buf.length := by
    refine lt_of_le_of_ne hbefore fun heq => ?_
    have hheld := hb.held_frames hs heq
    cases left with
    | nil =>
      rw [prefix_nil.1 hheld] at hne
      exact absurd hne (by decide)
    | cons f left =>
      obtain ⟨hmax, hcand⟩ := candidate_of_initial hheld hlen
      obtain ⟨htot, hcrc⟩ := hbad hmax
      exact hcrc (hcand htot).2.2
  have hz := aligned_of_initial (Behind.tail_initial hs)
  obtain ⟨y, hy⟩ : s.drop (g.length + (frameStream passed).length) <:+ p.buf := by
    refine suffix_of_suffix_length_le (drop_suffix _ _) hb.suffix ?_
    rw [length_drop]
    omega
  have hy0 : y ≠ [] := by
    rintro rfl
    have hlen' := congrArg List.length hy
    rw [nil_append, length_drop] at hlen'
    omega
  refine ⟨passed, left, rfl, hcs, hp ▸ resyncBuf_aligned _ _, hp ▸ hb.narrow hsuffix ?_⟩
  rw [← hy]
  exact length_le_resyncBuf hy0 hz

theorem take (hs : s <+: g ++ frameStream fs) (hclean : NoFalseStart g fs) (hc : Candidate p.buf)
    (hp : p'.buf = p.buf.drop (frameTotal p.buf)) :
    Follows g fs s
      (cs ++ panelCalls [⟨p.buf.take (frameTotal p.buf), p.buf.drop (frameTotal p.buf)⟩]) p' := by
  obtain ⟨passed, left, rfl, hcs, -, hb⟩ := h
  obtain ⟨hleft, hpos⟩ := hb.at_start hs hclean hc
  obtain ⟨f, left, rfl⟩ := exists_cons_of_ne_nil hleft
  have hheld : p.buf <+: f.bytes ++ frameStream left := hb.held_frames hs hpos
  have hlen : panelHdrSize ≤ p.buf.length := by
    have := hc.2.1
    unfold frameTotal at this
    omega
  have htot := frameTotal_of_initial hheld hlen
  have hwhole : f.bytes <+: p.buf :=
    prefix_of_prefix_length_le (prefix_append _ _) hheld (htot ▸ hc.2.1)
  obtain ⟨t, ht⟩ := hwhole
  have htake : p.buf.take (frameTotal p.buf) = f.bytes := by
    rw [htot, ← ht, take_left' rfl]
  have hdrop : p.buf.drop (frameTotal p.buf) = t := by
    rw [htot, ← ht, drop_left' rfl]
  have htail : t <+: frameStream left := by
    rw [← ht] at hheld
    exact (prefix_append_right_inj _).1 hheld
  have hlength : p.buf.length = f.bytes.length + t.length := by rw [← ht, length_append]
  have hstream : (frameStream (passed ++ [f])).length =
      (frameStream passed).length + f.bytes.length := by
    rw [frameStream_append, frameStream_cons, frameStream_nil, append_nil, length_append]
  refine ⟨passed ++ [f], left, by simp, ?_, ?_, ?_⟩
  · rw [htake, hdrop, hcs, filterMap_append]
    have hcall := f.call_taken t
    simp only [panelCalls, filterMap_cons, filterMap_nil, hcall]
  · rw [hp, hdrop]
    exact aligned_of_initial htail
  · rw [hp, hdrop]
    have hsuffix : t <:+ p.buf := ⟨f.bytes, ht⟩
    exact ⟨hsuffix.trans hb.suffix, by omega, fun _ => by omega⟩

theorem step (hs : s <+: g ++ frameStream fs)
    (hclean : NoFalseStart g fs) {ts : List Taken} (hstep : parserStep p = some (p', ts)) :
    Follows g fs s (cs ++ panelCalls ts) p' := by
  obtain ⟨hlen, ⟨rfl, hb, hbad⟩ | ⟨hmax, htot, hcrc, hb, rfl⟩⟩ := parserStep_cases hstep
  · rw [show panelCalls [] = [] from rfl, append_nil]
    exact h.resync hs hlen hb hbad
  · exact h.take hs hclean ⟨hmax, htot, hcrc⟩ hb

theorem drain (hs : s <+: g ++ frameStream fs) (hclean : NoFalseStart g fs) (n : Nat) :
    Follows g fs s (cs ++ panelCalls (parserDrain n p).2) (parserDrain n p).1 := by
  induction n generalizing p cs with
  | zero => simpa [parserDrain, panelCalls] using h
  | succ n ih =>
    unfold parserDrain
    cases hstep : parserStep p with
    | none => simpa [panelCalls] using h
    | some r =>
      have hnext := ih (h.step hs hclean hstep)
      rwa [append_assoc, ← panelCalls_append] at hnext

end

end Follows

/-! ## A byte enters -/

theorem length_le_parserAccept (h : Aligned p.buf) {c : UInt8} (hz : Aligned z)
    (hsuffix : z <:+ p.buf ++ [c]) (nowMs : UInt32) :
    z.length ≤ (parserAccept p c nowMs).buf.length := by
  have hne : panelMagic1 ≠ panelMagic0 := by decide
  have hle := hsuffix.length_le
  obtain hb | hb | ⟨t, hb⟩ := h
  · rw [hb] at hsuffix
    by_cases hm : c = panelMagic0
    · simpa [parserAccept, hb, hm] using hle
    obtain rfl | rfl | ⟨u, rfl⟩ := hz
    · exact Nat.zero_le _
    · exact absurd (mem_singleton.1 (hsuffix.subset mem_cons_self)).symm hm
    · exact absurd hsuffix.length_le (by simp)
  · rw [hb] at hsuffix
    by_cases hm : c = panelMagic1
    · simpa [parserAccept, hb, hm] using hle
    obtain rfl | rfl | ⟨u, rfl⟩ := hz
    · exact Nat.zero_le _
    · -- the byte is itself a first magic byte
      have hlast : panelMagic0 = c := by
        obtain ⟨x, hx⟩ := hsuffix
        have := congrArg List.getLast? hx
        simpa using this
      simp [parserAccept, hb, ← hlast, hne.symm]
    · have heq : panelMagic0 :: panelMagic1 :: u = [panelMagic0, c] :=
        hsuffix.eq_of_length_le (by simp)
      rw [List.cons.injEq, List.cons.injEq] at heq
      exact absurd heq.2.1.symm hm
  · have hbuf : (parserAccept p c nowMs).buf = p.buf ++ [c] := by simp [parserAccept, hb]
    rw [hbuf]
    exact hle

namespace Follows

variable {g s : Bytes} {fs : List EncodedFrame} {cs : List PanelCall} {p : PanelParser}

theorem accept (h : Follows g fs s cs p) {c : UInt8} (hs : s ++ [c] <+: g ++ frameStream fs)
    (nowMs : UInt32) : Follows g fs (s ++ [c]) cs (parserAccept p c nowMs) := by
  obtain ⟨passed, left, rfl, hcs, ha, hb⟩ := h
  have hsnoc := hb.snoc c
  have hbefore := hsnoc.before
  have hz := aligned_of_initial (Behind.tail_initial hs)
  have hsuffix : (s ++ [c]).drop (g.length + (frameStream passed).length) <:+ p.buf ++ [c] := by
    refine suffix_of_suffix_length_le (drop_suffix _ _) hsnoc.suffix ?_
    rw [length_drop]
    omega
  obtain ⟨hrest, hb⟩ := parserAccept_aligned ha c nowMs
  exact ⟨passed, left, rfl, hcs, hb,
    hsnoc.narrow hrest (length_le_parserAccept ha hz hsuffix nowMs)⟩

theorem feedBytes (h : Follows g fs s cs p) (hs : s ++ bs <+: g ++ frameStream fs)
    (hclean : NoFalseStart g fs) (nowMs : UInt32) :
    Follows g fs (s ++ bs) (cs ++ panelCalls (SolariNet.feedBytes nowMs p bs).2)
      (SolariNet.feedBytes nowMs p bs).1 := by
  induction bs generalizing p s cs with
  | nil => simpa [SolariNet.feedBytes, panelCalls] using h
  | cons c bs ih =>
    have hs' : (s ++ [c]) ++ bs <+: g ++ frameStream fs := by
      rwa [append_assoc, singleton_append]
    have hc : s ++ [c] <+: g ++ frameStream fs := (prefix_append _ _).trans hs'
    have hrest := ih ((h.accept hc nowMs).drain hc hclean (parserAccept p c nowMs).buf.length) hs'
    rw [append_assoc, append_assoc, ← panelCalls_append] at hrest
    exact hrest

end Follows

/-! ## Chunks without long gaps -/

def GapsWithin : Option UInt32 → List (Bytes × UInt32) → Prop
  | _, [] => True
  | last, (bytes, nowMs) :: feeds =>
    (∀ t, last = some t → nowMs - t ≤ panelFrameTimeoutMs) ∧
      GapsWithin (if bytes = [] then last else some nowMs) feeds

@[simp] theorem lastByteMs_parserAccept (p : PanelParser) (c : UInt8) (nowMs : UInt32) :
    (parserAccept p c nowMs).lastByteMs = nowMs := by
  unfold parserAccept
  split <;> rfl

theorem lastByteMs_parserStep {ts : List Taken}
    (h : parserStep p = some (p', ts)) : p'.lastByteMs = p.lastByteMs := by
  obtain ⟨-, h⟩ := Option.ite_none_left_eq_some.1 h
  split at h
  · cases h; rfl
  obtain ⟨-, h⟩ := Option.ite_none_left_eq_some.1 h
  split at h
  · cases h; rfl
  · cases h; rfl

@[simp] theorem lastByteMs_parserDrain (n : Nat) (p : PanelParser) :
    (parserDrain n p).1.lastByteMs = p.lastByteMs := by
  induction n generalizing p with
  | zero => rfl
  | succ n ih =>
    unfold parserDrain
    cases hs : parserStep p with
    | none => rfl
    | some r => exact (ih r.1).trans (lastByteMs_parserStep hs)

theorem lastByteMs_feedBytes (nowMs : UInt32) (p : PanelParser) {bs : Bytes} (h : bs ≠ []) :
    (feedBytes nowMs p bs).1.lastByteMs = nowMs := by
  induction bs generalizing p with
  | nil => exact absurd rfl h
  | cons c bs ih =>
    by_cases hb : bs = []
    · simp [hb, feedBytes]
    · exact ih _ hb

theorem parserTimeout_eq {nowMs : UInt32}
    (h : p.buf ≠ [] → nowMs - p.lastByteMs ≤ panelFrameTimeoutMs) : parserTimeout p nowMs = p := by
  unfold parserTimeout
  rw [if_neg]
  rintro ⟨hb, hgt⟩
  exact absurd hgt (UInt32.not_lt.2 (h hb))

theorem Follows.run {cs : List PanelCall} {feeds : List (Bytes × UInt32)}
    (h : Follows g fs s cs p) (hs : s ++ streamOf feeds <+: g ++ frameStream fs)
    (hclean : NoFalseStart g fs) {last : Option UInt32}
    (hlast : p.buf ≠ [] → last = some p.lastByteMs) (hgaps : GapsWithin last feeds) :
    Follows g fs (s ++ streamOf feeds) (cs ++ panelCalls (panelParserRun p feeds).2)
      (panelParserRun p feeds).1 := by
  induction feeds generalizing p s cs last with
  | nil => simpa [panelParserRun, panelCalls, streamOf] using h
  | cons f feeds ih =>
    obtain ⟨bs, nowMs⟩ := f
    obtain ⟨hgap, hgaps⟩ := hgaps
    have hkeep : parserTimeout p nowMs = p := parserTimeout_eq fun hb => hgap _ (hlast hb)
    have hs' : (s ++ bs) ++ streamOf feeds <+: g ++ frameStream fs := by
      rw [append_assoc]
      exact hs
    have hfeed : Follows g fs (s ++ bs) (cs ++ panelCalls (panelParserFeed p bs nowMs).2)
        (panelParserFeed p bs nowMs).1 := by
      unfold panelParserFeed
      rw [hkeep]
      exact h.feedBytes ((prefix_append _ _).trans hs') hclean nowMs
    have hlast' : (panelParserFeed p bs nowMs).1.buf ≠ [] → (if bs = [] then last else some nowMs) =
          some (panelParserFeed p bs nowMs).1.lastByteMs := by
      intro hb
      unfold panelParserFeed at hb ⊢
      rw [hkeep] at hb ⊢
      split
      · next hnil =>
        subst hnil
        exact hlast hb
      · next hne => rw [lastByteMs_feedBytes nowMs p hne]
    have hrest := ih hfeed hs' hlast' hgaps
    rw [append_assoc, append_assoc, ← panelCalls_append] at hrest
    exact hrest

/-! ## The buffer -/

def feedPeak (nowMs : UInt32) : PanelParser → Bytes → Nat
  | _, [] => 0
  | p, c :: bs =>
    let q := parserAccept p c nowMs
    max q.buf.length (feedPeak nowMs (parserDrain q.buf.length q).1 bs)

def panelParserPeak : PanelParser → List (Bytes × UInt32) → Nat
  | _, [] => 0
  | p, (bytes, nowMs) :: feeds =>
    max (feedPeak nowMs (parserTimeout p nowMs) bytes)
      (panelParserPeak (panelParserFeed p bytes nowMs).1 feeds)

theorem length_lt_of_settled (h : parserStep p = none) : p.buf.length < panelBufSize := by
  unfold parserStep at h
  split at h
  · next hlt =>
    unfold panelBufSize
    omega
  split at h
  · cases h
  next hmax =>
  split at h
  · next hlt =>
    unfold frameTotal at hlt
    unfold panelBufSize
    omega
  · split at h
    · cases h
    · cases h

theorem length_parserAccept_le (p : PanelParser) (c : UInt8) (nowMs : UInt32) :
    (parserAccept p c nowMs).buf.length ≤ p.buf.length + 1 := by
  unfold parserAccept
  split
  · split <;> simp
  · next a hb =>
    rw [hb]
    split
    · simp
    · split <;> simp
  · simp

theorem feedBytes_buffer (h : p.buf.length < panelBufSize) (nowMs : UInt32) (bs : Bytes) :
    feedPeak nowMs p bs ≤ panelBufSize ∧ (feedBytes nowMs p bs).1.buf.length < panelBufSize := by
  induction bs generalizing p with
  | nil => exact ⟨Nat.zero_le _, h⟩
  | cons c bs ih =>
    have hc := length_parserAccept_le p c nowMs
    have hsettled := parserDrain_settled (Nat.le_refl (parserAccept p c nowMs).buf.length)
    obtain ⟨hpeak, hend⟩ := ih (length_lt_of_settled hsettled)
    exact ⟨Nat.max_le.2 ⟨by omega, hpeak⟩, hend⟩

theorem length_parserTimeout_le (p : PanelParser) (nowMs : UInt32) :
    (parserTimeout p nowMs).buf.length ≤ p.buf.length := by
  unfold parserTimeout
  split
  · next h => exact Nat.le_of_lt (length_resyncBuf h.1)
  · exact Nat.le_refl _

/-- **The buffer is never exceeded**, whatever is fed and whenever. -/
theorem panelParserPeak_le (h : p.buf.length < panelBufSize) (feeds : List (Bytes × UInt32)) :
    panelParserPeak p feeds ≤ panelBufSize := by
  induction feeds generalizing p with
  | nil => exact Nat.zero_le _
  | cons f feeds ih =>
    obtain ⟨bs, nowMs⟩ := f
    have hlt := lt_of_le_of_lt (length_parserTimeout_le p nowMs) h
    obtain ⟨hpeak, hend⟩ := feedBytes_buffer hlt nowMs bs
    exact Nat.max_le.2 ⟨hpeak, ih hend⟩

/-! ## Completeness -/

theorem panelParserRun_length (h : p.buf.length < panelBufSize) (feeds : List (Bytes × UInt32)) :
    (panelParserRun p feeds).1.buf.length < panelBufSize := by
  induction feeds generalizing p with
  | nil => exact h
  | cons f feeds ih =>
    obtain ⟨bs, nowMs⟩ := f
    have hlt := lt_of_le_of_lt (length_parserTimeout_le p nowMs) h
    exact ih (feedBytes_buffer hlt nowMs bs).2

theorem frameStream_length_mono {gs : List EncodedFrame} (h : fs <+: gs) :
    (frameStream fs).length ≤ (frameStream gs).length := by
  obtain ⟨t, rfl⟩ := h
  rw [frameStream_append, length_append]
  omega

/-- **No frame is missed.** Let no position but the true starts begin a candidate. However the
stream is cut into calls without long gaps, the frames dispatched are the first `k`, and include
every frame from whose first byte on 4104 bytes have been fed. -/
theorem frames_dispatched (g : Bytes) (fs : List EncodedFrame) (hclean : NoFalseStart g fs)
    (feeds : List (Bytes × UInt32)) (hfed : streamOf feeds <+: g ++ frameStream fs)
    (hgaps : GapsWithin none feeds) :
    (∃ k ≤ fs.length, panelCalls (panelParserRun panelParserInit feeds).2 =
        (fs.take k).filterMap EncodedFrame.call ∧
      ∀ passed f left, fs = passed ++ f :: left →
        g.length + (frameStream passed).length + panelBufSize ≤ (streamOf feeds).length →
          passed.length < k) ∧ panelParserPeak panelParserInit feeds ≤ panelBufSize := by
  have hinit : panelParserInit.buf.length < panelBufSize := by decide
  refine ⟨?_, panelParserPeak_le hinit feeds⟩
  have h0 : Follows g fs [] [] panelParserInit :=
    ⟨[], fs, rfl, rfl, .inl rfl, ⟨nil_suffix, Nat.zero_le _, fun h => absurd rfl h⟩⟩
  have hrun := h0.run hfed hclean (fun h => absurd rfl h) hgaps
  rw [nil_append, nil_append] at hrun
  obtain ⟨done, rest, rfl, hcs, -, hb⟩ := hrun
  refine ⟨done.length, by simp, by rw [hcs, take_left' rfl], ?_⟩
  intro passed f left hfs hdeadline
  have hheld := panelParserRun_length hinit feeds
  have hbefore := hb.before
  -- a frame that starts behind the ones dispatched has not been there for so many bytes
  by_contra hge
  have hprefix : done <+: passed :=
    prefix_of_prefix_length_le (prefix_append done rest)
      (hfs ▸ prefix_append passed (f :: left)) (Nat.le_of_not_lt hge)
  have hmono := frameStream_length_mono hprefix
  omega

theorem Candidate.lt_length {i : Nat} (h : Candidate (b.drop i)) : i < b.length := by
  have htot := h.2.1
  rw [length_drop] at htot
  unfold frameTotal panelHdrSize at htot
  omega

section full
variable {f : EncodedFrame} (hf : f.payload = replicate panelMaxPayload 0xFF)
include hf

theorem byte_of_full (h₁ : 6 ≤ k) (h₂ : k < 6 + panelMaxPayload) : f.bytes[k]? = some 0xFF := by
  have hbytes : f.bytes = ([panelMagic0, panelMagic1, panelProtoVersion, f.type] ++
      writeLe16 (.ofNat f.payload.length)) ++
        (f.payload ++ writeLe16 (panelCrc16 (frameBody f.type f.payload))) := by
    simp [f.bytes_eq, frameBody]
  rw [hbytes, getElem?_append_right (by simp; omega), getElem?_append_left (by simp [hf]; omega),
    hf, getElem?_replicate, if_pos (by simp; omega)]

-- a start inside it would announce a payload of 65280 bytes or more
theorem noFalseStart_full : NoFalseStart [] [f] := by
  intro i hi
  obtain ⟨hlong, hle, -⟩ := hi
  simp only [frameStream_cons, frameStream_nil, append_nil, nil_append, length_drop, f.length_bytes,
    hf, length_replicate, frameTotal, panelHdrSize, panelCrcSize] at hle hlong
  by_cases h0 : i = 0
  · exact ⟨[], f, [], rfl, h0⟩
  obtain ⟨h5, hbyte⟩ := List.getElem?_eq_some_iff.1
    (byte_of_full hf (k := i + 5) (by omega) (by omega))
  have hslice : slice (f.bytes.drop i) 4 2 = [f.bytes[i + 4], 0xFF] := by
    rw [slice, drop_drop, drop_eq_getElem_cons (by omega), drop_eq_getElem_cons h5, hbyte]
    rfl
  have hbig (x : UInt8) : panelMaxPayload < (UInt16.ofNat (ofBytes [0xFF, x])).toNat := by
    have hx := x.toNat_lt
    simp only [ofBytes, UInt16.toNat_ofNat', panelMaxPayload, length_cons, length_nil]
    have hff : (0xFF : UInt8).toNat = 255 := rfl
    omega
  rw [payloadLen, readLe16, hslice] at hlong
  exact absurd hlong (Nat.not_le.2 (hbig _))

end full

/-- The largest frame, as long as the buffer of the parser. -/
def fullFrame : EncodedFrame where
  type := PanelFt.snapshot
  payload := replicate panelMaxPayload 0xFF
  bytes :=
    panelMagic0 :: panelMagic1 :: frameBody PanelFt.snapshot (replicate panelMaxPayload 0xFF) ++
      writeLe16 (panelCrc16 (frameBody PanelFt.snapshot (replicate panelMaxPayload 0xFF)))
  encoded := ⟨panelBufSize, if_neg (by simp [panelBufSize])⟩

theorem frames_dispatched_full :
    panelCalls (panelParserRun panelParserInit [(fullFrame.bytes, 10)]).2 =
      [⟨PanelFt.snapshot, fullFrame.payload⟩] := by
  have hfed (f : EncodedFrame) : streamOf [(f.bytes, 10)] = [] ++ frameStream [f] := by
    simp [streamOf]
  have hlen : fullFrame.bytes.length = panelBufSize := by
    rw [fullFrame.length_bytes]
    simp [fullFrame, panelBufSize]
  obtain ⟨⟨k, hk, hcalls, hall⟩, -⟩ := frames_dispatched [] [fullFrame] (noFalseStart_full rfl)
    [(fullFrame.bytes, 10)] (hfed _ ▸ prefix_rfl) (by simp [GapsWithin])
  have h0 : 0 < k := hall [] fullFrame [] rfl (by simp [streamOf, hlen])
  obtain rfl : k = 1 := Nat.le_antisymm hk h0
  have hcall : fullFrame.call = some ⟨PanelFt.snapshot, fullFrame.payload⟩ := if_pos rfl
  simpa [hcall] using hcalls

def pingEncoded : EncodedFrame := ⟨PanelFt.ping, [], pingFrame, 8, by decide +kernel⟩

theorem noFalseStart_ping
    (h : ∀ i < (g ++ pingFrame).length, Candidate ((g ++ pingFrame).drop i) → i = g.length) :
    NoFalseStart g [pingEncoded] := by
  intro i hi
  exact ⟨[], pingEncoded, [], rfl, h i hi.lt_length hi⟩

def longHeader : Bytes := [0xA5, 0x53, 0x01, 0x01, 0x00, 0x10]

/-- **A frame left waiting.**  With nothing behind it, the `PING` stays in the buffer as part of
the frame the noise announces. -/
theorem frame_left_waiting : NoFalseStart longHeader [pingEncoded] ∧
      streamOf [(longHeader ++ pingFrame, 10)] = longHeader ++ frameStream [pingEncoded] ∧
      GapsWithin none [(longHeader ++ pingFrame, 10)] ∧
      pingEncoded.call = some ⟨PanelFt.ping, []⟩ ∧
      panelCalls (panelParserRun panelParserInit [(longHeader ++ pingFrame, 10)]).2 = [] := by
  refine ⟨noFalseStart_ping (by decide +kernel), rfl, ?_, rfl, by decide +kernel⟩
  simp [GapsWithin]

end SolariNet
