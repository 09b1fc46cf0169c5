import Bk7258.Uart.InProcess

/-!
# The transmit ring

With one writer at a time, what the write calls have accepted is what was sent followed by the contents of the ring.
The writer works with a value of `tx_rd_idx` that may be old, and what a command has taken stays in the ring until
its sender moves that index.
-/

namespace Bk7258
open Lts Ring

/-! ## The copies -/

section
variable {n rd wr len : Nat} {buf : Nat → BitVec 8} {bytes : List (BitVec 8)}

theorem uartRoom_eq (hrd : rd < n) (hwr : wr < n) : uartRoom n rd wr + count n rd wr + 1 = n := by
  have hcount := count_cases n rd wr
  unfold uartRoom
  split <;> omega

variable (hrd : rd < uartTxBufLen) (hwr : wr < uartTxBufLen)
include hrd hwr

theorem uartTxCopy_eq (hlen : bytes.length ≤ uartRoom uartTxBufLen rd wr) {c : Nat} (hc : c < uartTxBufLen) :
    uartTxCopy buf rd wr bytes c = fill buf uartTxBufLen wr bytes c := by
  have hroom := uartRoom_eq hrd hwr
  have hcount := count_cases uartTxBufLen rd wr
  unfold uartTxCopy
  split
  · exact put_eq_fill hwr (by omega) c
  · rcases Nat.eq_zero_or_pos rd with hz | hpos
    · simp only [hz, ne_eq, not_true_eq_false, if_false]
      rw [if_pos (by rw [← hz]; exact hlen)]
      exact put_eq_fill hwr (by omega) c
    · simp only [Nat.ne_of_gt hpos, ne_eq, not_false_eq_true, if_true]
      split
      · exact put_eq_fill hwr (by omega) c
      · exact put_put_eq_fill hwr (by omega) hc

theorem uartXchgCopy_eq (hlen : len ≤ count uartTxBufLen rd wr) :
    uartXchgCopy buf rd wr len = (contents buf uartTxBufLen rd wr).take len := by
  have hcount := count_cases uartTxBufLen rd wr
  unfold uartXchgCopy
  split
  · exact slice_eq_take (by omega) hlen
  · simp only
    split
    · exact slice_eq_take (by omega) hlen
    · exact slice_slice_eq_take hrd hwr (by omega) hlen

theorem slice_uartXchgCopy (hlen : len ≤ count uartTxBufLen rd wr) (xchg : Nat → BitVec 8) :
    slice (put xchg 0 (uartXchgCopy buf rd wr len)) 0 len = (contents buf uartTxBufLen rd wr).take len := by
  rw [uartXchgCopy_eq hrd hwr hlen]
  have hput := slice_put xchg 0 ((contents buf uartTxBufLen rd wr).take len)
  rwa [List.length_take, contents_length, Nat.min_eq_left hlen] at hput

end

/-! ## The transmit ring -/

namespace MbUartCb
variable (cb : MbUartCb)

def txCount : Nat := count uartTxBufLen cb.txRdIdx cb.txWrIdx

def txContents : List (BitVec 8) := contents cb.txBuf uartTxBufLen cb.txRdIdx cb.txWrIdx

@[simp] theorem txContents_length : cb.txContents.length = cb.txCount := contents_length

end MbUartCb

namespace UartPc

def writing : UartPc → Bool
  | .write _ | .writeRd .. | .writeIdx .. => true
  | _ => false

def txPlain : UartPc → Bool
  | .write _ | .writeRd .. | .writeIdx .. | .sendData .. | .sendIdx .. => false
  | _ => true

/-- What a writer knows: its value of `tx_rd_idx` may be old, its bytes are in the free cells. -/
def WriteFact (cb : MbUartCb) : UartPc → Prop
  | .writeRd _ rd => rd < uartTxBufLen ∧ cb.txCount ≤ count uartTxBufLen rd cb.txWrIdx
  | .writeIdx bytes wr => wr = cb.txWrIdx ∧ cb.txCount + bytes.length < uartTxBufLen ∧
      ∀ k (hk : k < bytes.length), cb.txBuf ((cb.txWrIdx + k) % uartTxBufLen) = bytes[k]
  | _ => True

/-- What a sender knows: the exchange buffer has the first bytes of the ring. Once they are sent, they are in the
ring until the index is moved. -/
def SendFact (cb : MbUartCb) : UartPc → Prop
  | .sendData _ _ len => 0 < len ∧ len ≤ uartXchgDataMax ∧ len ≤ cb.txCount ∧
      slice cb.txXchgBuff 0 len = cb.txContents.take len
  | .sendIdx _ rd len => rd = cb.txRdIdx ∧ len ≤ cb.txCount ∧ cb.accepted = cb.sent ++ cb.txContents.drop len
  | _ => True

variable {cb cb' : MbUartCb} {p : UartPc}

theorem txPlain_spec (cb : MbUartCb) (h : p.txPlain) :
    p.writing = false ∧ p.advancing = false ∧ p.WriteFact cb ∧ p.SendFact cb := by
  cases p <;> first | exact ⟨rfl, rfl, trivial, trivial⟩ | cases h

theorem WriteFact.of_not (h : p.writing = false) : p.WriteFact cb := by
  cases p <;> trivial

theorem SendFact.of_not (ho : p.owns = false) (ha : p.advancing = false) : p.SendFact cb := by
  cases p <;> trivial

theorem WriteFact.mono (h : p.WriteFact cb) (hbuf : cb'.txBuf = cb.txBuf) (hwr : cb'.txWrIdx = cb.txWrIdx)
    (hcount : cb'.txCount ≤ cb.txCount) : p.WriteFact cb' := by
  cases p with
  | writeRd data rd => exact ⟨h.1, by rw [hwr]; exact Nat.le_trans hcount h.2⟩
  | writeIdx bytes wr =>
    obtain ⟨h1, h2, h3⟩ := h
    refine ⟨by rw [hwr]; exact h1, by omega, fun k hk => ?_⟩
    rw [hbuf, hwr]
    exact h3 k hk
  | _ => trivial

theorem SendFact.mono (h : p.SendFact cb) (bytes : List (BitVec 8)) (hrd : cb'.txRdIdx = cb.txRdIdx)
    (hxchg : cb'.txXchgBuff = cb.txXchgBuff) (hcont : cb'.txContents = cb.txContents ++ bytes)
    (hacc : cb'.accepted = cb.accepted ++ bytes) (hsent : cb'.sent = cb.sent) : p.SendFact cb' := by
  have hcount : cb.txCount ≤ cb'.txCount := by
    rw [← cb'.txContents_length, hcont, List.length_append, cb.txContents_length]
    omega
  cases p with
  | sendData ret rd len =>
    obtain ⟨h1, h2, h3, h4⟩ := h
    refine ⟨h1, h2, by omega, ?_⟩
    rw [hxchg, h4, hcont, List.take_append_of_le_length (by simpa using h3)]
  | sendIdx ret rd len =>
    obtain ⟨h1, h2, h3⟩ := h
    refine ⟨by rw [hrd]; exact h1, by omega, ?_⟩
    rw [hacc, h3, hsent, hcont, List.drop_append_of_le_length (by simpa using h2), List.append_assoc]
  | _ => trivial

end UartPc

namespace UartRet
variable (ret : UartRet)

@[simp] theorem done_txPlain : ret.done.txPlain := by cases ret <;> rfl
@[simp] theorem sent_txPlain : ret.sent.txPlain := by cases ret <;> rfl
@[simp] theorem failed_txPlain : ret.failed.txPlain := by cases ret <;> rfl

end UartRet

structure MbUartCb.TxSame (cb cb' : MbUartCb) : Prop where
  buf : cb'.txBuf = cb.txBuf
  rd : cb'.txRdIdx = cb.txRdIdx
  wr : cb'.txWrIdx = cb.txWrIdx
  xchg : cb'.txXchgBuff = cb.txXchgBuff
  accepted : cb'.accepted = cb.accepted
  sent : cb'.sent = cb.sent

def UartPc.offTx : UartPc → Bool
  | .write _ | .writeRd .. | .writeIdx .. | .sendWr .. | .sendData .. | .sendIdx .. | .sendState _ => false
  | _ => true

theorem MbUartCb.next_offTx {cb cb' : MbUartCb} {xchg : Nat → BitVec 8} {p p' : UartPc}
    (h : cb.next xchg p = some (cb', p')) (hp : p.offTx) :
    p.advancing = false ∧ cb.TxSame cb' ∧ p'.txPlain ∧ cb'.written = cb.written := by
  cases p with
  | idle | rxRsp => cases h
  | write | writeRd | writeIdx | sendWr | sendData | sendIdx | sendState => cases hp
  | sendRd | clear | read | rxIdx | rxFree | txCmplCts | txCmplOk =>
    cases h
    exact ⟨rfl, ⟨rfl, rfl, rfl, rfl, rfl, rfl⟩, by first | rfl | simp, rfl⟩
  | readIdx | rx | rxCts | sendCts | txCmpl | txCmplFail =>
    cases h
    refine ⟨rfl, ⟨rfl, rfl, rfl, rfl, rfl, rfl⟩, ?_, rfl⟩
    split <;> first | rfl | simp
  | dataTrigger | readRd | readRts | stateTrigger =>
    simp only [next] at h
    split at h <;> cases h <;> exact ⟨rfl, ⟨rfl, rfl, rfl, rfl, rfl, rfl⟩, by first | rfl | simp, rfl⟩
  | rxRd =>
    simp only [next] at h
    split at h
    · cases h
      exact ⟨rfl, ⟨rfl, rfl, rfl, rfl, rfl, rfl⟩, rfl, rfl⟩
    · split at h <;> cases h <;> exact ⟨rfl, ⟨rfl, rfl, rfl, rfl, rfl, rfl⟩, rfl, rfl⟩

namespace MbUartCb.TxSame
variable {cb cb' : MbUartCb} {p : UartPc} (h : cb.TxSame cb')
include h

theorem contents : cb'.txContents = cb.txContents := by simp only [txContents, h.buf, h.rd, h.wr]

theorem writeFact (hp : p.WriteFact cb) : p.WriteFact cb' :=
  hp.mono h.buf h.wr (by simp only [txCount, h.rd, h.wr, Nat.le_refl])

theorem sendFact (hp : p.SendFact cb) : p.SendFact cb' :=
  hp.mono [] h.rd h.xchg (by rw [h.contents, List.append_nil]) (by rw [h.accepted, List.append_nil]) h.sent

end MbUartCb.TxSame

namespace UartEnd
variable {T : Type}

structure TxRing (s : UartEnd T) : Prop where
  holder : s.Holder
  write : ∀ c, (s.pc c).WriteFact s.cb
  send : ∀ c, (s.pc c).SendFact s.cb
  oneWriter : ∀ c d, (s.pc c).writing = true → (s.pc d).writing = true → c = d
  oneSender : ∀ c d, (s.pc c).advancing = true → (s.pc d).advancing = true → c = d
  stream : (∀ c, (s.pc c).advancing = false) → s.cb.accepted = s.cb.sent ++ s.cb.txContents
  cmd : ∀ k, s.cb.written = some k → k.cmd = .sendData → 0 < k.cmdDataLen ∧ k.cmdDataLen ≤ uartXchgDataMax

namespace TxRing
variable {s : UartEnd T} {c : Option T} {cb : MbUartCb} {p : UartPc}

theorem sent_accepted (h : s.TxRing) : s.cb.sent <+: s.cb.accepted := by
  by_cases hadv : ∀ c, (s.pc c).advancing = false
  · exact ⟨_, (h.stream hadv).symm⟩
  · simp only [not_forall, Bool.not_eq_false] at hadv
    obtain ⟨c, hc⟩ := hadv
    have hsend := h.send c
    cases hp : s.pc c with
    | sendIdx ret rd len => rw [hp] at hsend; exact ⟨_, hsend.2.2.symm⟩
    | _ => rw [hp] at hc; cases hc

theorem others_write (h : s.TxRing) (hc : (s.pc c).writing) {cb : MbUartCb} (d : Option T) (hd : d ≠ c) :
    (s.pc d).WriteFact cb := by
  refine .of_not ?_
  by_contra hw
  exact hd (h.oneWriter d c (by simpa using hw) hc)

variable [DecidableEq T]

theorem not_advancing_of_move (hc : (s.pc c).advancing = false)
    (h : ∀ d, ((s.move c cb p).pc d).advancing = false) (d : Option T) : (s.pc d).advancing = false := by
  by_cases hd : d = c
  · rw [hd, hc]
  · have := h d
    rwa [move_of_ne hd] at this

theorem same (h : s.TxRing) (hh : (s.move c cb p).Holder) (hs : s.cb.TxSame cb) (hw : p.WriteFact cb)
    (hsend : p.SendFact cb) (hwr : p.writing → (s.pc c).writing ∨ ∀ d, (s.pc d).writing = false)
    (hc : (s.pc c).advancing = false) (hp : p.advancing = false)
    (hcmd : ∀ k, cb.written = some k → s.cb.written = some k ∨ k.cmd ≠ .sendData) : (s.move c cb p).TxRing where
  holder := hh
  write := move_pc (fun d _ => hs.writeFact (h.write d)) hw
  send := move_pc (fun d _ => hs.sendFact (h.send d)) hsend
  oneWriter := move_one h.oneWriter hwr
  oneSender := move_one h.oneSender fun ha => by rw [hp] at ha; cases ha
  stream hadv := by
    rw [move_cb, hs.accepted, hs.sent, hs.contents]
    exact h.stream (not_advancing_of_move hc hadv)
  cmd k hk hdata := by
    obtain hold | hne := hcmd k hk
    · exact h.cmd k hold hdata
    · exact absurd hdata hne

theorem plain (h : s.TxRing) (hh : (s.move c cb p).Holder) (hc : (s.pc c).advancing = false) (hp : p.txPlain)
    (hs : s.cb.TxSame cb) (hcmd : ∀ k, cb.written = some k → s.cb.written = some k ∨ k.cmd ≠ .sendData) :
    (s.move c cb p).TxRing := by
  obtain ⟨hw, ha, hwf, hsf⟩ := UartPc.txPlain_spec cb hp
  exact h.same hh hs hwf hsf (fun h => by rw [hw] at h; cases h) hc ha hcmd

section
variable {xchg : Nat → BitVec 8}

theorem next_writeRd (h : s.TxRing) {data : List (BitVec 8)} {rd : Nat} (hc : s.pc c = .writeRd data rd)
    (hn : s.cb.next xchg (s.pc c) = some (cb, p)) (hh : (s.move c cb p).Holder) : (s.move c cb p).TxRing := by
  have hfact := h.write c
  rw [hc] at hfact hn
  obtain ⟨hrd, hcount⟩ := hfact
  cases hn
  have hroom := uartRoom_eq hrd s.cb.txWrIdx.isLt
  generalize hbytes : data.take (uartRoom uartTxBufLen rd s.cb.txWrIdx) = bytes at hh ⊢
  have hlen : bytes.length ≤ uartRoom uartTxBufLen rd s.cb.txWrIdx := by
    rw [← hbytes, List.length_take]
    omega
  have hbuf : ∀ x < uartTxBufLen, uartTxCopy s.cb.txBuf rd s.cb.txWrIdx bytes x =
      fill s.cb.txBuf uartTxBufLen s.cb.txWrIdx bytes x := fun x => uartTxCopy_eq hrd s.cb.txWrIdx.isLt hlen
  have hcont := contents_fill s.cb.txRdIdx.isLt s.cb.txWrIdx.isLt
    (show s.cb.txCount + bytes.length ≤ uartTxBufLen by omega) hbuf
  exact {
    holder := hh
    write := move_pc (h.others_write (by rw [hc]; rfl))
      ⟨rfl, show s.cb.txCount + _ < _ by omega, fun k hk => fill_new s.cb.txWrIdx.isLt (by omega) hbuf hk⟩
    send := move_pc (fun d _ => (h.send d).mono [] rfl rfl
      (hcont.trans (List.append_nil _).symm) (List.append_nil _).symm rfl) trivial
    oneWriter := move_one h.oneWriter fun _ => .inl (by rw [hc]; rfl)
    oneSender := move_one h.oneSender nofun
    stream hadv := (h.stream (not_advancing_of_move (by rw [hc]; rfl) hadv)).trans (congrArg _ hcont.symm)
    cmd := h.cmd }

theorem next_writeIdx (h : s.TxRing) {bytes : List (BitVec 8)} {wr : Nat} (hc : s.pc c = .writeIdx bytes wr)
    (hn : s.cb.next xchg (s.pc c) = some (cb, p)) (hh : (s.move c cb p).Holder) : (s.move c cb p).TxRing := by
  have hfact := h.write c
  rw [hc] at hfact hn
  obtain ⟨rfl, hroom, hnew⟩ := hfact
  cases hn
  have hcont : contents s.cb.txBuf uartTxBufLen s.cb.txRdIdx ((s.cb.txWrIdx + bytes.length) % uartTxBufLen) =
      s.cb.txContents ++ bytes :=
    contents_append s.cb.txRdIdx.isLt s.cb.txWrIdx.isLt hroom (fun _ _ => rfl) hnew
  exact {
    holder := hh
    write := move_pc (h.others_write (by rw [hc]; rfl)) trivial
    send := move_pc (fun d _ => (h.send d).mono bytes rfl rfl hcont rfl rfl) trivial
    oneWriter := move_one h.oneWriter nofun
    oneSender := move_one h.oneSender nofun
    stream hadv := by
      have hstream := h.stream (not_advancing_of_move (by rw [hc]; rfl) hadv)
      show s.cb.accepted ++ bytes = s.cb.sent ++ contents _ _ _ _
      rw [hstream, List.append_assoc]
      exact congrArg _ hcont.symm
    cmd := h.cmd }

theorem next_sendWr (h : s.TxRing) {ret : UartRet} {rd : Nat} (hc : s.pc c = .sendWr ret rd)
    (hn : s.cb.next xchg (s.pc c) = some (cb, p)) (hh : (s.move c cb p).Holder) : (s.move c cb p).TxRing := by
  obtain ⟨-, -, hfresh⟩ := h.holder.of_owns (c := c) (by rw [hc]; rfl)
  obtain ⟨hown, hadv⟩ := h.holder.others (c := c) (by rw [hc]; rfl)
  rw [hc] at hfresh hn
  obtain rfl : rd = s.cb.txRdIdx := hfresh
  simp only [MbUartCb.next] at hn
  split at hn
  · cases hn
    exact h.plain hh (hadv c) (by simp) ⟨rfl, rfl, rfl, rfl, rfl, rfl⟩ fun k hk => .inl hk
  · rename_i hne
    cases hn
    have hle : min (count uartTxBufLen s.cb.txRdIdx s.cb.txWrIdx) uartXchgDataMax ≤
      count uartTxBufLen s.cb.txRdIdx s.cb.txWrIdx := Nat.min_le_left ..
    refine {
      holder := hh
      write := move_pc (fun d _ => (h.write d).mono rfl rfl (Nat.le_refl _)) trivial
      send := move_pc (fun d hd => .of_not (hown d hd) (hadv d)) ⟨?_, Nat.min_le_right .., hle,
        slice_uartXchgCopy s.cb.txRdIdx.isLt s.cb.txWrIdx.isLt hle _⟩
      oneWriter := move_one h.oneWriter fun hw => by cases hw
      oneSender := move_one h.oneSender fun ha => by cases ha
      stream := fun _ => h.stream hadv
      cmd := h.cmd }
    have hpos : 0 < uartXchgDataMax := by decide
    omega

theorem next_sendData (h : s.TxRing) {ret : UartRet} {rd len : Nat} (hc : s.pc c = .sendData ret rd len)
    (hn : s.cb.next xchg (s.pc c) = some (cb, p)) (hh : (s.move c cb p).Holder) : (s.move c cb p).TxRing := by
  obtain ⟨-, hw, hfresh⟩ := h.holder.of_owns (c := c) (by rw [hc]; rfl)
  obtain ⟨hown, hadv⟩ := h.holder.others (c := c) (by rw [hc]; rfl)
  have hfact := h.send c
  rw [hc] at hfresh hn hfact
  obtain ⟨hpos, hmax, hle, hxchg⟩ := hfact
  simp only [MbUartCb.next, hw] at hn
  cases hn
  exact {
    holder := hh
    write := move_pc (fun d _ => (h.write d).mono rfl rfl (Nat.le_refl _)) trivial
    send := move_pc (fun d hd => .of_not (hown d hd) (hadv d)) ⟨hfresh.1, hle, by
      show s.cb.accepted = s.cb.sent ++ slice s.cb.txXchgBuff 0 len ++ s.cb.txContents.drop len
      rw [hxchg, List.append_assoc, List.take_append_drop]
      exact h.stream hadv⟩
    oneWriter := move_one h.oneWriter fun hw => by cases hw
    oneSender := move_one h.oneSender fun _ => .inr hadv
    stream := fun ha => by
      have := ha c
      rw [move_self] at this
      cases this
    cmd := fun k hk _ => by cases hk; exact ⟨hpos, hmax⟩ }

theorem next_sendIdx (h : s.TxRing) {ret : UartRet} {rd len : Nat} (hc : s.pc c = .sendIdx ret rd len)
    (hn : s.cb.next xchg (s.pc c) = some (cb, p)) (hh : (s.move c cb p).Holder) : (s.move c cb p).TxRing := by
  have hfact := h.send c
  have hone := fun d => h.oneSender d c
  rw [hc] at hn hfact
  obtain ⟨rfl, hle, hstream⟩ := hfact
  have hadv : ∀ d, d ≠ c → (s.pc d).advancing = false := by
    intro d hd
    by_contra ha
    exact hd (hone d (by simpa using ha) (by rw [hc]; rfl))
  have hown : ∀ d, (s.pc d).owns = false := by
    cases h.holder with
    | free _ _ hown | out _ _ _ _ hown => exact hown
    | held _ _ _ _ _ _ hadv => have := hadv c; rw [hc] at this; cases this
  cases hn
  have hcont : contents s.cb.txBuf uartTxBufLen ((s.cb.txRdIdx + len) % uartTxBufLen) s.cb.txWrIdx =
      s.cb.txContents.drop len := contents_drop s.cb.txRdIdx.isLt s.cb.txWrIdx.isLt hle
  have hcount := count_read s.cb.txRdIdx.isLt s.cb.txWrIdx.isLt hle
  exact {
    holder := hh
    write := move_pc (fun d _ => (h.write d).mono rfl rfl (Nat.le_trans (Nat.le_of_eq hcount) (Nat.sub_le ..)))
      (.of_not (by cases ret <;> rfl))
    send := move_pc (fun d hd => .of_not (hown d) (hadv d hd)) (.of_not (by simp) (by simp))
    oneWriter := move_one h.oneWriter fun hw => by cases ret <;> cases hw
    oneSender := move_one h.oneSender fun ha => by simp at ha
    stream := fun _ => hstream.trans (congrArg _ hcont.symm)
    cmd := h.cmd }

theorem next (h : s.TxRing) (hok : (s.pc c).triggers → s.cb.exceptionMode = false)
    (hn : s.cb.next xchg (s.pc c) = some (cb, p)) : (s.move c cb p).TxRing := by
  have hh := h.holder.txStep (MbUartCb.next_txStep hn hok h.holder.of_owns)
  by_cases hoff : (s.pc c).offTx
  · obtain ⟨hadv, hs, hp, hw⟩ := MbUartCb.next_offTx hn hoff
    exact h.plain hh hadv hp hs fun k hk => .inl (hw ▸ hk)
  cases hc : s.pc c with
  | writeRd => exact h.next_writeRd hc hn hh
  | writeIdx => exact h.next_writeIdx hc hn hh
  | sendWr => exact h.next_sendWr hc hn hh
  | sendData => exact h.next_sendData hc hn hh
  | sendIdx => exact h.next_sendIdx hc hn hh
  | write data =>
    rw [hc] at hn
    cases hn
    exact h.same hh ⟨rfl, rfl, rfl, rfl, rfl, rfl⟩ ⟨s.cb.txRdIdx.isLt, Nat.le_refl _⟩ trivial
      (fun _ => .inl (by rw [hc]; rfl)) (by rw [hc]; rfl) rfl fun k hk => .inl hk
  | sendState ret =>
    rw [hc] at hn
    simp only [MbUartCb.next] at hn
    split at hn
    · cases hn
      exact h.plain hh (by rw [hc]; rfl) rfl ⟨rfl, rfl, rfl, rfl, rfl, rfl⟩ fun k hk => .inl hk
    · cases hn
      refine h.plain hh (by rw [hc]; rfl) (by simp) ⟨rfl, rfl, rfl, rfl, rfl, rfl⟩ fun k hk => .inr ?_
      cases hk
      exact MbUartCmdId.noConfusion
  | _ => exact absurd (by rw [hc]; rfl) hoff

end

variable {s' : UartEnd T} {a : UartAct T}

theorem step (h : s.TxRing) (hok : s.TxOk a) (hone : ∀ t data, a = .write t data → ∀ c, (s.pc c).writing = false)
    (hs : s.step a = some s') : s'.TxRing := by
  have hh := h.holder.step hok hs
  cases a with
  | write t data =>
    obtain ⟨hidle, rfl⟩ := call_eq hs
    exact h.same hh ⟨rfl, rfl, rfl, rfl, rfl, rfl⟩ trivial trivial (fun _ => .inr (hone t data rfl))
      (by rw [hidle]; rfl) rfl fun k hk => .inl hk
  | read t n | devInit t =>
    obtain ⟨hidle, rfl⟩ := call_eq hs
    exact h.plain hh (by rw [hidle]; rfl) rfl ⟨rfl, rfl, rfl, rfl, rfl, rfl⟩ fun k hk => .inl hk
  | rx k =>
    obtain ⟨hidle, rfl⟩ := rx_eq hs
    exact h.plain hh (by rw [hidle]; rfl) rfl ⟨rfl, rfl, rfl, rfl, rfl, rfl⟩ fun k hk => .inl hk
  | rsp =>
    obtain ⟨r, hr, rfl⟩ := rsp_eq hs
    exact h.plain hh (by rw [hr]; rfl) rfl ⟨rfl, rfl, rfl, rfl, rfl, rfl⟩ fun k hk => .inl hk
  | txCmpl r =>
    obtain ⟨k, hw, hidle, rfl⟩ := txCmpl_eq hs
    exact h.plain hh (by rw [hidle]; rfl) rfl ⟨rfl, rfl, rfl, rfl, rfl, rfl⟩ nofun
  | next c xchg =>
    obtain ⟨cb, p, hn, rfl⟩ := next_eq hs
    exact h.next hok hn

end TxRing
end UartEnd
end Bk7258
