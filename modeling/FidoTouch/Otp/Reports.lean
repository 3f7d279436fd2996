import FidoTouch.Crc
import FidoTouch.Otp.Effects

/-! How an answer leaves over the keyboard interface: it is followed by its check value and fetched seven bytes at a time,
from a buffer that a size and two sequence numbers go by. -/
namespace FidoTouch.Otp
open FidoTouch.Program Handler FidoTouch.Storage FidoTouch.Ctap

variable {ε : Type}

/-! ### The check value -/

/-- `0x8408` -/
def crcPoly : BitVec 16 := 0x8408

private theorem low_bit (c : UInt16) : c &&& 0x1 = 1 ↔ c.toBitVec.getLsbD 0 = true := by
  rw [← UInt16.toBitVec_inj, UInt16.toBitVec_and, show (0x1 : UInt16).toBitVec = 1#16 from rfl,
    BitVec.and_one_eq_setWidth_ofBool_getLsbD]
  cases c.toBitVec.getLsbD 0 <;> decide

theorem crcStep_toBitVec (c : UInt16) : (crcStep c).toBitVec = Crc.shift crcPoly c.toBitVec := by
  unfold crcStep Crc.shift
  by_cases h : c &&& 0x1 = 1
  · rw [if_pos h, if_pos ((low_bit c).mp h)]
    rfl
  · rw [if_neg h, if_neg (mt (low_bit c).mpr h)]
    rfl

/-- A byte more. -/
private theorem crcByte_toBitVec (c : UInt16) (b : UInt8) :
    ((List.range 8).foldl (fun crc _ => crcStep crc) (c ^^^ b.toUInt16)).toBitVec = Crc.feed crcPoly c.toBitVec b.toBitVec := by
  have hsteps : ∀ n (c : UInt16), ((List.range n).foldl (fun crc _ => crcStep crc) c).toBitVec = (Crc.shift crcPoly)^[n] c.toBitVec := by
    intro n
    induction n with
    | zero => exact fun _ => rfl
    | succ n ih =>
      intro c
      rw [List.range_succ, List.foldl_append, Function.iterate_succ_apply', ← ih]
      exact crcStep_toBitVec _
  exact hsteps 8 _

private theorem halves (v : UInt16) : (v >>> 8).toUInt8.toBitVec ++ v.toUInt8.toBitVec = v.toBitVec := by
  have hhigh : (v >>> 8).toUInt8.toBitVec = (v.toBitVec >>> 8).setWidth 8 := rfl
  have hlow : v.toUInt8.toBitVec = v.toBitVec.setWidth 8 := rfl
  rw [hhigh, hlow]
  refine BitVec.eq_of_getLsbD_eq fun i hi => ?_
  simp only [BitVec.getLsbD_append, BitVec.getLsbD_setWidth, BitVec.getLsbD_ushiftRight]
  by_cases h : i < 8
  · simp [h]
  · simp [h, show i - 8 < 8 by omega, show 8 + (i - 8) = i by omega]

/-- The complement of the check value behind the data leaves the same residue for all data. -/
theorem calculateCrc_sealed (data : Bytes) : calculateCrc (data ++ le16 (~~~ calculateCrc data)) = 0xF0B8 := by
  unfold calculateCrc
  rw [List.foldl_append]
  set c := List.foldl (fun crc (b : UInt8) => (List.range 8).foldl (fun crc _ => crcStep crc) (crc ^^^ b.toUInt16)) 0xFFFF data
  rw [← UInt16.toBitVec_inj, le16, List.foldl_cons, List.foldl_cons, List.foldl_nil, crcByte_toBitVec, crcByte_toBitVec,
    Crc.feed_feed crcPoly (by decide), halves, UInt16.toBitVec_not, Crc.feed_complement]
  decide +kernel

/-! ### The buffer of an answer -/

/-- The state with the buffer that an answer lies in, all of it, and with the size that the USB stack keeps of it. -/
structure HidState where
  otp : OtpState
  otpFrameTx : Block 70
  sendBufferSize : Nat

/-- `put_uint16_le` behind a frame that lies in the buffer -/
def sealFrame (tx : Block 70) (frameLen : Nat) : Block 70 :=
  ⟨Oath.overwrite tx.1 frameLen (le16 (~~~ calculateCrc (tx.1.take frameLen))), by simp [Oath.overwrite, tx.2, le16]; omega⟩

/-- `otp_send_frame` on the buffer: `otp_frame_tx`, from its start. -/
def sendFrame (frameLen : Nat) : Handler HidState ε Unit := modify fun s =>
  let size := frameLen + 2
  let expSeq := UInt8.ofNat (size / 7)
  { otp := { s.otp with otpExpSeq := if size % 7 ≠ 0 then expSeq + 1 else expSeq, otpCurrSeq := 0 }
    otpFrameTx := sealFrame s.otpFrameTx frameLen
    sendBufferSize := size }

section
variable [Sdk]

/-- `otp_hid_get_report_cb` on the buffer; the status leaves the first byte of the report as it is. -/
def getReport (buffer : Block 8) : Handler HidState ε Bytes := do
  let s ← get
  if 0 < s.sendBufferSize then do
    let part := (s.otpFrameTx.1.drop (7 * s.otp.otpCurrSeq.toNat)).take (min 7 s.sendBufferSize)
    modify fun s =>
      { s with
        otp := { s.otp with otpCurrSeq := s.otp.otpCurrSeq + 1 }
        sendBufferSize := s.sendBufferSize - min 7 s.sendBufferSize }
    return (Block.ofBytes 7 part).1 ++ [0x40 ||| s.otp.otpCurrSeq]
  else if s.otp.otpCurrSeq = s.otp.otpExpSeq ∧ 0 < s.otp.otpExpSeq then do
    modify fun s => { s with otp := { s.otp with otpCurrSeq := 0, otpExpSeq := 0 } }
    return List.replicate 7 0 ++ [0x40]
  else do
    let _ ← zoom HidState.otp (fun otp s => { s with otp := otp }) (otpStatus true)
    let s ← get
    return byteAt buffer.1 0 :: statusBytes s.otp

/-- One report after the other. -/
def getReports : List (Block 8) → Handler HidState ε (List Bytes)
  | [] => pure []
  | buffer :: buffers => do
    let report ← getReport buffer
    let reports ← getReports buffers
    return report :: reports

/-! ### The bytes that are still to be fetched -/

namespace HidState

/-- The state that knows of the buffer only what is still to be fetched. -/
def toFetch (s : HidState) : OtpState :=
  { s.otp with sendBuffer := (s.otpFrameTx.1.drop (7 * s.otp.otpCurrSeq.toNat)).take s.sendBufferSize }

/-- What is still to be fetched lies in the buffer. -/
def Fits (s : HidState) : Prop := 7 * s.otp.otpCurrSeq.toNat + s.sendBufferSize ≤ 70

end HidState

omit [Sdk] in
private theorem sealFrame_take {tx : Block 70} {frameLen : Nat} (h : frameLen ≤ 68) : (sealFrame tx frameLen).1.take (frameLen + 2) =
    tx.1.take frameLen ++ le16 (~~~ calculateCrc (tx.1.take frameLen)) := by
  have hfront : (tx.1.take frameLen ++ le16 (~~~ calculateCrc (tx.1.take frameLen))).length = frameLen + 2 := by
    rw [List.length_append, List.length_take, tx.2]
    simp only [le16, List.length_cons, List.length_nil]
    omega
  simp only [sealFrame, Oath.overwrite]
  rw [List.take_take, tx.2, Nat.min_eq_left (by omega), ← hfront, List.take_left]

omit [Sdk] in
private theorem expSeq_eq (size : Nat) : (if size % 7 ≠ 0 then UInt8.ofNat (size / 7) + 1 else UInt8.ofNat (size / 7)) =
    UInt8.ofNat ((size + 6) / 7) := by
  split
  · rename_i hpart
    rw [show (size + 6) / 7 = size / 7 + 1 by omega, UInt8.ofNat_add]
    rfl
  · rename_i hwhole
    rw [show (size + 6) / 7 = size / 7 by omega]

omit [Sdk] in
theorem sendFrame_toFetch {frameLen : Nat} (h : frameLen ≤ 68) (s : HidState) :
    ((sendFrame frameLen : Handler HidState ε Unit) s).2.toFetch =
        ((otpSendFrame (s.otpFrameTx.1.take frameLen) : Handler OtpState ε Unit) s.toFetch).2 ∧
      ((sendFrame frameLen : Handler HidState ε Unit) s).2.Fits := by
  have hlen : (s.otpFrameTx.1.take frameLen).length = frameLen := by
    rw [List.length_take, s.otpFrameTx.2]
    omega
  refine ⟨?_, ?_⟩
  · simp only [sendFrame, otpSendFrame, modify_run, HidState.toFetch, hlen, expSeq_eq, UInt8.toNat_zero, Nat.mul_zero, List.drop_zero,
      sealFrame_take h]
  · show 7 * 0 + (frameLen + 2) ≤ 70
    omega

/-- Over the keyboard interface only what `init_otp` goes by is changed. -/
private theorem otpStatus_run (s : OtpState) : (otpStatus true : Handler OtpState ε Bytes) s = (.ok [],
    { s with
      fido := if s.scanned = true then s.fido else ((scanAll : Handler OtpState Empty Unit) s).2.fido
      scanned := true }) := by
  rcases s with ⟨fido, scanned⟩
  cases scanned <;> rfl

omit [Sdk] in
/-- A part of seven bytes does not depend on what comes after them. -/
private theorem part_take (b : Bytes) (n : Nat) : Block.ofBytes 7 (b.take (min 7 n)) = Block.ofBytes 7 (b.take n) := by
  rcases Nat.le_total n 7 with hn | hn
  · rw [Nat.min_eq_right hn]
  · apply Subtype.ext
    have hrest : 7 - min 7 b.length = 7 - min n b.length := by omega
    simp only [Block.ofBytes, Nat.min_eq_left hn, List.take_append, List.take_take, Nat.min_self, List.length_take, hrest]

theorem getReport_data (buffer : Block 8) {s : HidState} (hsize : 0 < s.sendBufferSize) :
    (getReport buffer : Handler HidState ε Bytes) s = (.ok ((Block.ofBytes 7 s.toFetch.sendBuffer).1 ++ [0x40 ||| s.otp.otpCurrSeq]),
      { s with otp := { s.otp with otpCurrSeq := s.otp.otpCurrSeq + 1 }, sendBufferSize := s.sendBufferSize - 7 }) := by
  unfold getReport
  rw [bind_eq (get_run s), if_pos hsize, part_take, show s.sendBufferSize - 7 = s.sendBufferSize - min 7 s.sendBufferSize by omega]
  rfl

theorem getReport_end (buffer : Block 8) {s : HidState} (hsize : s.sendBufferSize = 0)
    (hend : s.otp.otpCurrSeq = s.otp.otpExpSeq ∧ 0 < s.otp.otpExpSeq) :
    (getReport buffer : Handler HidState ε Bytes) s = (.ok (List.replicate 7 0 ++ [0x40]),
      { s with otp := { s.otp with otpCurrSeq := 0, otpExpSeq := 0 } }) := by
  unfold getReport
  rw [bind_eq (get_run s), if_neg (by omega), if_pos hend]
  rfl

theorem getReport_status (buffer : Block 8) {s : HidState} (hsize : s.sendBufferSize = 0)
    (hend : ¬ (s.otp.otpCurrSeq = s.otp.otpExpSeq ∧ 0 < s.otp.otpExpSeq)) :
    (getReport buffer : Handler HidState ε Bytes) s =
      (.ok (byteAt buffer.1 0 :: statusBytes ((otpStatus true : Handler OtpState ε Bytes) s.otp).2),
      { s with otp := ((otpStatus true : Handler OtpState ε Bytes) s.otp).2 }) := by
  unfold getReport
  rw [bind_eq (get_run s), if_neg (by omega), if_neg hend, bind_run, zoom_run, otpStatus_run]
  rfl

/-- A report of the buffer is one of the bytes to be fetched. -/
theorem getReport_toFetch {buffer : Block 8} (hbuffer : byteAt buffer.1 0 = 0) {s : HidState} (hs : s.Fits) :
    ∃ report t, (getReport buffer : Handler HidState ε Bytes) s = (.ok report, t) ∧
      (otpHidGetReport : Handler OtpState ε Bytes) s.toFetch = (.ok report, t.toFetch) ∧ t.Fits := by
  unfold HidState.Fits at hs
  by_cases hsize : 0 < s.sendBufferSize
  · have hsome : s.toFetch.sendBuffer ≠ [] := by
      rw [ne_eq, ← List.length_eq_zero_iff, HidState.toFetch, List.length_take, List.length_drop, s.otpFrameTx.2]
      omega
    have hnext : (s.otp.otpCurrSeq + 1).toNat = s.otp.otpCurrSeq.toNat + 1 := by
      rw [UInt8.toNat_add, UInt8.toNat_one]
      omega
    refine ⟨_, _, getReport_data buffer hsize, ?_, ?_⟩
    · unfold otpHidGetReport
      rw [bind_eq (get_run s.toFetch), if_pos hsome]
      refine Prod.ext rfl ?_
      show { s.toFetch with sendBuffer := s.toFetch.sendBuffer.drop 7, otpCurrSeq := s.otp.otpCurrSeq + 1 } = _
      simp only [HidState.toFetch, hnext, List.drop_take, List.drop_drop, Nat.mul_add]
    · show 7 * (s.otp.otpCurrSeq + 1).toNat + (s.sendBufferSize - 7) ≤ 70
      omega
  have hzero : s.sendBufferSize = 0 := Nat.eq_zero_of_not_pos hsize
  have hnone : s.toFetch.sendBuffer = [] := by rw [HidState.toFetch, hzero, List.take_zero]
  by_cases hend : s.otp.otpCurrSeq = s.otp.otpExpSeq ∧ 0 < s.otp.otpExpSeq
  · refine ⟨_, _, getReport_end buffer hzero hend, ?_, ?_⟩
    · unfold otpHidGetReport
      rw [bind_eq (get_run s.toFetch), if_neg (not_not.mpr hnone), if_pos ⟨hend.1, UInt8.pos_iff_ne_zero.mp hend.2⟩]
      refine Prod.ext rfl ?_
      show { s.toFetch with otpCurrSeq := 0, otpExpSeq := 0 } = _
      simp only [HidState.toFetch, hzero, List.take_zero]
    · show 7 * 0 + s.sendBufferSize ≤ 70
      omega
  · refine ⟨_, _, getReport_status buffer hzero hend, ?_, ?_⟩
    · unfold otpHidGetReport
      rw [bind_eq (get_run s.toFetch), if_neg (not_not.mpr hnone), if_neg fun h => hend ⟨h.1, UInt8.pos_iff_ne_zero.mpr h.2⟩,
        bind_eq (otpStatus_run s.toFetch), hbuffer, otpStatus_run s.otp]
      rfl
    · rw [otpStatus_run]
      exact hs

/-! ### A whole answer -/

omit [Sdk] in
/-- Nothing but zeros is left of the last part behind the answer. -/
private theorem parts_flatten (answer : Bytes) {k : Nat} (h : answer.length ≤ 7 * k) :
    ((List.range k).map fun i => (Block.ofBytes 7 (answer.drop (7 * i))).1).flatten =
      answer ++ List.replicate (7 * k - answer.length) 0 := by
  have hpart : ∀ i ∈ List.range k, (Block.ofBytes 7 (answer.drop (7 * i))).1 =
      ((answer ++ List.replicate (7 * k - answer.length) 0).drop (7 * i)).take 7 := fun i hi => by
    have hik := List.mem_range.mp hi
    apply List.ext_getElem?
    intro j
    simp only [Block.ofBytes, List.getElem?_take, List.getElem?_append, List.getElem?_drop, List.length_drop, List.getElem?_replicate]
    by_cases hj : j < 7
    · by_cases hin : 7 * i + j < answer.length
      · simp [hj, hin, show j < answer.length - 7 * i by omega]
      · simp [hj, hin, show ¬ j < answer.length - 7 * i by omega, show j - (answer.length - 7 * i) < 7 by omega,
          show 7 * i + j - answer.length < 7 * k - answer.length by omega]
    · simp [hj]
  have hwhole : ∀ (b : Bytes) m, ((List.range m).map fun i => (b.drop (7 * i)).take 7).flatten = b.take (7 * m) := fun b m => by
    induction m with
    | zero => simp
    | succ m ih => rw [List.range_succ, List.map_append, List.flatten_append, ih, Nat.mul_succ, List.take_add]; simp
  rw [List.map_congr_left hpart, hwhole, List.take_of_length_le]
  simp only [List.length_append, List.length_replicate]
  omega

/-- What is left to fetch of an answer after the first `n` parts. -/
def HidState.fetched (s : HidState) (tx : Block 70) (size n : Nat) : HidState where
  otp := { s.otp with otpExpSeq := UInt8.ofNat ((size + 6) / 7), otpCurrSeq := UInt8.ofNat n }
  otpFrameTx := tx
  sendBufferSize := size - 7 * n

private theorem getReports_cons {buffer : Block 8} {buffers : List (Block 8)} {s t u : HidState} {report : Bytes} {reports : List Bytes}
    (h : (getReport buffer : Handler HidState ε Bytes) s = (.ok report, t))
    (hrest : (getReports buffers : Handler HidState ε (List Bytes)) t = (.ok reports, u)) :
    (getReports (buffer :: buffers) : Handler HidState ε (List Bytes)) s = (.ok (report :: reports), u) := by
  rw [getReports, bind_eq h, bind_eq hrest]
  rfl

private theorem getReports_append {buffers buffers' : List (Block 8)} {s t u : HidState} {reports reports' : List Bytes}
    (h : (getReports buffers : Handler HidState ε (List Bytes)) s = (.ok reports, t))
    (hrest : (getReports buffers' : Handler HidState ε (List Bytes)) t = (.ok reports', u)) :
    (getReports (buffers ++ buffers') : Handler HidState ε (List Bytes)) s = (.ok (reports ++ reports'), u) := by
  induction buffers generalizing s reports with
  | nil =>
    cases h
    exact hrest
  | cons buffer buffers ih =>
    obtain ⟨report, s', hreport, h⟩ := bind_ok h
    obtain ⟨reports, t', hreports, h⟩ := bind_ok h
    cases h
    exact getReports_cons hreport (ih hreports)

/-- The parts of an answer carry the numbers that follow. -/
private theorem getReports_data (s : HidState) (tx : Block 70) (size : Nat) (hsize : size ≤ 70) (buffers : List (Block 8)) (n : Nat)
    (h : 7 * (n + buffers.length) < size + 7) :
    (getReports buffers : Handler HidState ε (List Bytes)) (s.fetched tx size n) =
      (.ok ((List.range' n buffers.length).map fun i =>
        (Block.ofBytes 7 ((tx.1.take size).drop (7 * i))).1 ++ [0x40 ||| UInt8.ofNat i]), s.fetched tx size (n + buffers.length)) := by
  induction buffers generalizing n with
  | nil => rfl
  | cons buffer buffers ih =>
    rw [List.length_cons] at h ⊢
    have hleft : (s.fetched tx size n).toFetch.sendBuffer = (tx.1.take size).drop (7 * n) := by
      simp only [HidState.toFetch, HidState.fetched, UInt8.toNat_ofNat', Nat.mod_eq_of_lt (by omega : n < 2 ^ 8), List.drop_take]
    have hreport := getReport_data (ε := ε) buffer (s := s.fetched tx size n) (by show 0 < size - 7 * n; omega)
    have hnext : ({ s.fetched tx size n with
        otp := { (s.fetched tx size n).otp with otpCurrSeq := (s.fetched tx size n).otp.otpCurrSeq + 1 }
        sendBufferSize := (s.fetched tx size n).sendBufferSize - 7 } : HidState) = s.fetched tx size (n + 1) := by
      simp only [HidState.fetched, UInt8.ofNat_add, Nat.mul_add, Nat.sub_sub]
      rfl
    rw [hleft, hnext] at hreport
    rw [getReports_cons hreport (ih (n + 1) (by omega)), List.range'_succ, show n + 1 + buffers.length = n + (buffers.length + 1) by omega]
    rfl

/-- Where nothing is left to fetch every report is the status. -/
private theorem getReports_status (buffers : List (Block 8)) {s : HidState} (hsize : s.sendBufferSize = 0) (hend : s.otp.otpExpSeq = 0) :
    ∃ t : HidState, (getReports buffers : Handler HidState ε (List Bytes)) s =
      (.ok (buffers.map fun buffer => byteAt buffer.1 0 :: statusBytes t.otp), t) := by
  let u : OtpState := ((otpStatus true : Handler OtpState ε Bytes) s.otp).2
  have hpast : ∀ {v : HidState}, v.otp.otpExpSeq = 0 → ¬ (v.otp.otpCurrSeq = v.otp.otpExpSeq ∧ 0 < v.otp.otpExpSeq) := fun hv h => by
    rw [hv] at h
    exact absurd h.2 (by decide)
  -- once the flag of `init_otp` is set the status changes nothing
  have hagain : ∀ buffers, (getReports buffers : Handler HidState ε (List Bytes)) { s with otp := u } =
      (.ok (buffers.map fun buffer => byteAt buffer.1 0 :: statusBytes u), { s with otp := u }) := by
    have hu : (otpStatus true : Handler OtpState ε Bytes) u = (.ok [], u) := by
      rw [otpStatus_run, show u = _ from congrArg Prod.snd (otpStatus_run s.otp)]
      rfl
    intro buffers
    induction buffers with
    | nil => rfl
    | cons buffer buffers ih =>
      have hreport := getReport_status (ε := ε) buffer (s := { s with otp := u }) hsize
        (hpast (by show u.otpExpSeq = 0; rw [show u = _ from congrArg Prod.snd (otpStatus_run s.otp)]; exact hend))
      rw [show (otpStatus true : Handler OtpState ε Bytes) ({ s with otp := u } : HidState).otp = _ from hu] at hreport
      exact getReports_cons hreport ih
  cases buffers with
  | nil => exact ⟨s, rfl⟩
  | cons buffer buffers => exact ⟨{ s with otp := u }, getReports_cons (getReport_status buffer hsize (hpast hend)) (hagain buffers)⟩

/-- An answer is fetched in numbered parts of seven bytes, with its check value and zeros behind it; one report says that it
is over, and then they are the status. -/
theorem frame_reports (payload : Bytes) (hlength : 1 ≤ payload.length ∧ payload.length ≤ 68) (s : HidState)
    (hframe : s.otpFrameTx.1.take payload.length = payload) (data : List (Block 8))
    (hdata : data.length = (payload.length + 2 + 6) / 7) (last : Block 8) (more : List (Block 8)) :
    (∃ (part : Nat → Block 7) (padding : Nat) (t : HidState),
      ((List.range data.length).map fun i => (part i).1).flatten =
          payload ++ le16 (~~~ calculateCrc payload) ++ List.replicate padding 0 ∧ padding < 7 ∧
      (sendFrame payload.length >>= fun _ => getReports (data ++ last :: more) : Handler HidState ε (List Bytes)) s =
        (.ok (((List.range data.length).map fun i => (part i).1 ++ [0x40 ||| UInt8.ofNat i]) ++ (List.replicate 7 0 ++ [0x40]) ::
          more.map fun buffer => byteAt buffer.1 0 :: statusBytes t.otp), t)) ∧
      (∀ data, calculateCrc (data ++ le16 (~~~ calculateCrc data)) = 0xF0B8) ∧
      ∀ config, config.length + 2 = otpConfigSize → checkCrc (config ++ le16 (~~~ calculateCrc config)) = true := by
  refine ⟨?_, calculateCrc_sealed, fun config hconfig => ?_⟩
  · have hanswer : (sealFrame s.otpFrameTx payload.length).1.take (payload.length + 2) = payload ++ le16 (~~~ calculateCrc payload) := by
      rw [sealFrame_take hlength.2, hframe]
    have hanswerlen : (payload ++ le16 (~~~ calculateCrc payload)).length = payload.length + 2 := by
      rw [List.length_append]
      rfl
    have hparts := parts_flatten (payload ++ le16 (~~~ calculateCrc payload)) (k := data.length) (by omega)
    -- the end is told by the number of parts
    have hsent : (sendFrame payload.length : Handler HidState ε Unit) s =
        (.ok (), s.fetched (sealFrame s.otpFrameTx payload.length) (payload.length + 2) 0) := by
      simp only [sendFrame, modify_run, HidState.fetched, expSeq_eq]
      rfl
    have hfetched := getReports_data (ε := ε) s (sealFrame s.otpFrameTx payload.length) (payload.length + 2) (by omega) data 0
      (by omega)
    rw [hanswer, Nat.zero_add] at hfetched
    let u := s.fetched (sealFrame s.otpFrameTx payload.length) (payload.length + 2) data.length
    have hempty : u.sendBufferSize = 0 := by
      show payload.length + 2 - 7 * data.length = 0
      omega
    have hcount : u.otp.otpExpSeq.toNat = data.length := by
      show (UInt8.ofNat ((payload.length + 2 + 6) / 7)).toNat = data.length
      rw [← hdata, UInt8.toNat_ofNat']
      omega
    have hended : u.otp.otpCurrSeq = u.otp.otpExpSeq ∧ 0 < u.otp.otpExpSeq := by
      refine ⟨?_, UInt8.lt_iff_toNat_lt.mpr (by rw [hcount]; show 0 < data.length; omega)⟩
      show UInt8.ofNat data.length = UInt8.ofNat ((payload.length + 2 + 6) / 7)
      rw [hdata]
    have hlast := getReport_end (ε := ε) last hempty hended
    obtain ⟨t, hmore⟩ := getReports_status (ε := ε) more (s := { u with otp := { u.otp with otpCurrSeq := 0, otpExpSeq := 0 } }) hempty rfl
    refine ⟨_, _, t, hparts, by omega, ?_⟩
    rw [bind_eq hsent, getReports_append hfetched (getReports_cons hlast hmore), List.range_eq_range']
  · have hsealed : (config ++ le16 (~~~ calculateCrc config)).length = otpConfigSize := by
      rw [List.length_append]
      exact hconfig
    rw [checkCrc, List.take_of_length_le (by omega), calculateCrc_sealed, decide_eq_true_eq]

end

section Plain
attribute [local instance] plainSdk plainLibrary plainOtpSdk

/-- Five bytes and their check value are one part. -/
theorem short_frame_reports : ∃ (part : Nat → Block 7) (padding : Nat) (t : HidState),
    ((List.range 1).map fun i => (part i).1).flatten =
        [1, 2, 3, 4, 5] ++ le16 (~~~ calculateCrc [1, 2, 3, 4, 5]) ++ List.replicate padding 0 ∧ padding < 7 ∧
      (sendFrame 5 >>= fun _ => getReports ([Block.zero 8] ++ Block.zero 8 :: [Block.zero 8]) : Handler HidState PicoError (List Bytes))
          ⟨plainOtp [], Block.ofBytes 70 [1, 2, 3, 4, 5], 0⟩ =
        (.ok (((List.range 1).map fun i => (part i).1 ++ [0x40 ||| UInt8.ofNat i]) ++ (List.replicate 7 0 ++ [0x40]) ::
          [Block.zero 8].map fun buffer => byteAt buffer.1 0 :: statusBytes t.otp), t) :=
  (frame_reports [1, 2, 3, 4, 5] (by decide) ⟨plainOtp [], Block.ofBytes 70 [1, 2, 3, 4, 5], 0⟩ (by decide) [Block.zero 8] (by decide)
    _ _).1

end Plain
end FidoTouch.Otp
