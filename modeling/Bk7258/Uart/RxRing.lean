import Bk7258.Uart.TxRing

/-!
# The receive ring

With one reader at a time, what has arrived is what the read calls have returned followed by the contents of the ring. A
command that fills the ring while `rx_rd_idx` is 0 leaves both indices at 0, so a data command may only come while there
is room for more than the largest one.
-/

namespace Bk7258
open Lts Ring

section
variable {rd wr len : Nat} {buf : Nat → BitVec 8} {bytes : List (BitVec 8)}

theorem uartRxCopy_eq (hrd : rd < uartRxBufLen) (hwr : wr < uartRxBufLen)
    (hlen : bytes.length ≤ uartRoom uartRxBufLen rd wr) (hfit : rd = 0 → bytes.length < uartRoom uartRxBufLen rd wr) :
    (∀ c < uartRxBufLen, (uartRxCopy buf rd wr bytes).1 c = fill buf uartRxBufLen wr bytes c) ∧
      (uartRxCopy buf rd wr bytes).2.apply wr = (wr + bytes.length) % uartRxBufLen := by
  have hroom := uartRoom_eq hrd hwr
  have hcount := count_cases uartRxBufLen rd wr
  have hmod := add_mod_cases hwr (k := bytes.length) (by omega)
  unfold uartRxCopy
  split
  · exact ⟨fun c _ => put_eq_fill hwr (by omega) c, show wr + bytes.length = _ by omega⟩
  · rcases Nat.eq_zero_or_pos rd with hz | hpos
    · have hfit := hfit hz
      rw [if_pos hz]
      simp only
      rw [if_pos (by omega)]
      exact ⟨fun c _ => put_eq_fill hwr (by omega) c, show wr + bytes.length = _ by omega⟩
    · rw [if_neg (Nat.ne_of_gt hpos)]
      simp only
      split
      · exact ⟨fun c _ => put_eq_fill hwr (by omega) c, show wr + bytes.length = _ by omega⟩
      · exact ⟨fun c hc => put_put_eq_fill hwr (by omega) hc,
          show bytes.length - (uartRxBufLen - wr) = _ by omega⟩

theorem uartRxRead_eq (hrd : rd < uartRxBufLen) (hwr : wr < uartRxBufLen) (hlen : len ≤ count uartRxBufLen rd wr) :
    (uartRxRead buf rd wr len).1 = (contents buf uartRxBufLen rd wr).take len ∧
      (uartRxRead buf rd wr len).2.apply rd = (rd + len) % uartRxBufLen := by
  have hcount := count_cases uartRxBufLen rd wr
  have hmod := add_mod_cases hrd (k := len) (by omega)
  unfold uartRxRead
  split
  · exact ⟨slice_eq_take (by omega) hlen, show rd + len = _ by omega⟩
  · simp only
    split
    · exact ⟨slice_eq_take (by omega) hlen, show rd + len = _ by omega⟩
    · exact ⟨slice_slice_eq_take hrd hwr (by omega) hlen, show len - (uartRxBufLen - rd) = _ by omega⟩

end

namespace MbUartCb
variable (cb : MbUartCb)

def rxCount : Nat := count uartRxBufLen cb.rxRdIdx cb.rxWrIdx

def rxContents : List (BitVec 8) := contents cb.rxBuf uartRxBufLen cb.rxRdIdx cb.rxWrIdx

@[simp] theorem rxContents_length : cb.rxContents.length = cb.rxCount := contents_length

end MbUartCb

namespace UartPc

def reading : UartPc → Bool
  | .read _ | .readRd .. | .readIdx .. | .readRts _ => true
  | _ => false

def receiving : UartPc → Bool
  | .rx _ | .rxRd .. | .rxIdx .. | .rxFree .. => true
  | _ => false

def deciding : UartPc → Bool
  | .rxFree .. => true
  | _ => false

/-- A reader that sets `ctrl_rts` to 0 has seen all that is in the ring. -/
def upToDate (cb : MbUartCb) : UartPc → Bool
  | .readRts wr => !cb.ctrlRts || cb.rxWrIdx == wr
  | _ => true

def ReadFact (cb : MbUartCb) : UartPc → Prop
  | .readRd _ rd => rd = cb.rxRdIdx
  | .readIdx bytes store dataCnt wr => store.apply cb.rxRdIdx = (cb.rxRdIdx + bytes.length) % uartRxBufLen ∧
      bytes.length ≤ cb.rxCount ∧ bytes = cb.rxContents.take bytes.length ∧
      wr < uartRxBufLen ∧ dataCnt + bytes.length = count uartRxBufLen cb.rxRdIdx wr
  | .readRts wr => count uartRxBufLen cb.rxRdIdx wr < (uartRxBufLen - 1 - uartXchgDataMax) * 8 / 10
  | _ => True

def RxFact (cb : MbUartCb) : UartPc → Prop
  | .rxRd k rd => (0 < k.cmdDataLen ∧ k.cmdDataLen ≤ uartXchgDataMax) ∧ rd < uartRxBufLen ∧
      cb.rxCount ≤ count uartRxBufLen rd cb.rxWrIdx ∧
      count uartRxBufLen rd cb.rxWrIdx + uartXchgDataMax + 1 < uartRxBufLen
  | .rxIdx _ bytes store freeCnt => store.apply cb.rxWrIdx = (cb.rxWrIdx + bytes.length) % uartRxBufLen ∧
      freeCnt + cb.rxCount + bytes.length < uartRxBufLen ∧
      ∀ k (hk : k < bytes.length), cb.rxBuf ((cb.rxWrIdx + k) % uartRxBufLen) = bytes[k]
  | .rxFree _ freeCnt _ => freeCnt + cb.rxCount < uartRxBufLen
  | _ => True

variable {cb cb' : MbUartCb} {p : UartPc}

theorem ReadFact.of_not (h : p.reading = false) : p.ReadFact cb := by
  cases p <;> trivial

theorem ReadFact.mono (h : p.ReadFact cb) (bytes : List (BitVec 8)) (hrd : cb'.rxRdIdx = cb.rxRdIdx)
    (hcont : cb'.rxContents = cb.rxContents ++ bytes) : p.ReadFact cb' := by
  have hcount : cb.rxCount ≤ cb'.rxCount := by
    rw [← cb'.rxContents_length, hcont, List.length_append, cb.rxContents_length]
    omega
  cases p with
  | readRd n rd => exact h.trans hrd.symm
  | readIdx xs store dataCnt wr =>
    obtain ⟨h1, h2, h3, h4⟩ := h
    refine ⟨by rw [hrd]; exact h1, by omega, ?_, by rw [hrd]; exact h4⟩
    rw [hcont, List.take_append_of_le_length (by simpa using h2)]
    exact h3
  | readRts wr => unfold ReadFact; rw [hrd]; exact h
  | _ => trivial

theorem RxFact.mono (h : p.RxFact cb) (hbuf : cb'.rxBuf = cb.rxBuf) (hwr : cb'.rxWrIdx = cb.rxWrIdx)
    (hcount : cb'.rxCount ≤ cb.rxCount) : p.RxFact cb' := by
  cases p with
  | rxRd k rd =>
    obtain ⟨h1, h2, h3, h4⟩ := h
    exact ⟨h1, h2, by rw [hwr]; omega, by rw [hwr]; exact h4⟩
  | rxIdx k bytes store freeCnt =>
    obtain ⟨h1, h2, h3⟩ := h
    refine ⟨by rw [hwr]; exact h1, by omega, fun k hk => ?_⟩
    rw [hbuf, hwr]
    exact h3 k hk
  | rxFree k freeCnt txFail => exact Nat.lt_of_le_of_lt (Nat.add_le_add_left hcount _) h
  | _ => trivial

end UartPc

structure MbUartCb.RxSame (cb cb' : MbUartCb) : Prop where
  buf : cb'.rxBuf = cb.rxBuf
  rd : cb'.rxRdIdx = cb.rxRdIdx
  wr : cb'.rxWrIdx = cb.rxWrIdx
  rts : cb'.ctrlRts = cb.ctrlRts
  overflow : cb'.statusOverflow = cb.statusOverflow
  arrived : cb'.arrived = cb.arrived
  returned : cb'.returned = cb.returned

namespace MbUartCb.RxSame
variable {cb cb' : MbUartCb} {p : UartPc} (h : cb.RxSame cb')
include h

theorem contents : cb'.rxContents = cb.rxContents := by simp only [rxContents, h.buf, h.rd, h.wr]

theorem count : cb'.rxCount = cb.rxCount := by simp only [rxCount, h.rd, h.wr]

theorem readFact (hp : p.ReadFact cb) : p.ReadFact cb' :=
  hp.mono [] h.rd (by rw [h.contents, List.append_nil])

theorem rxFact (hp : p.RxFact cb) : p.RxFact cb' := hp.mono h.buf h.wr (Nat.le_of_eq h.count)

end MbUartCb.RxSame

def UartPc.offRx : UartPc → Bool
  | .read _ | .readRd .. | .readIdx .. | .readRts _ | .rx _ | .rxRd .. | .rxIdx .. | .rxFree .. => false
  | _ => true

theorem UartPc.offRx_spec {p : UartPc} (cb : MbUartCb) (h : p.offRx) :
    p.reading = false ∧ p.receiving = false ∧ p.ReadFact cb ∧ p.RxFact cb := by
  cases p <;> first | exact ⟨rfl, rfl, trivial, trivial⟩ | cases h

namespace UartRet
variable (ret : UartRet)

@[simp] theorem done_offRx : ret.done.offRx := by cases ret <;> rfl
@[simp] theorem sent_offRx : ret.sent.offRx := by cases ret <;> rfl
@[simp] theorem failed_offRx : ret.failed.offRx := by cases ret <;> rfl

end UartRet

theorem MbUartCb.next_offRx {cb cb' : MbUartCb} {xchg : Nat → BitVec 8} {p p' : UartPc}
    (h : cb.next xchg p = some (cb', p')) (hp : p.offRx) : cb.RxSame cb' ∧ p'.offRx := by
  cases p with
  | idle | rxRsp => cases h
  | read | readRd | readIdx | readRts | rx | rxRd | rxIdx | rxFree => cases hp
  | write | writeRd | writeIdx | sendRd | sendIdx | clear | txCmplCts | txCmplOk =>
    cases h
    exact ⟨⟨rfl, rfl, rfl, rfl, rfl, rfl, rfl⟩, by first | rfl | simp⟩
  | rxCts | sendCts | txCmpl | txCmplFail =>
    cases h
    refine ⟨⟨rfl, rfl, rfl, rfl, rfl, rfl, rfl⟩, ?_⟩
    split <;> first | rfl | simp
  | dataTrigger | stateTrigger | sendWr | sendData | sendState =>
    simp only [next] at h
    split at h <;> cases h <;> exact ⟨⟨rfl, rfl, rfl, rfl, rfl, rfl, rfl⟩, by first | rfl | simp⟩

namespace UartEnd
variable {T : Type}

structure RxRing (s : UartEnd T) : Prop where
  rd_lt : s.cb.rxRdIdx < uartRxBufLen
  wr_lt : s.cb.rxWrIdx < uartRxBufLen
  isr : ∀ t, (s.pc (some t)).receiving = false
  read : ∀ c, (s.pc c).ReadFact s.cb
  rx : (s.pc none).RxFact s.cb
  oneReader : ∀ c d, (s.pc c).reading = true → (s.pc d).reading = true → c = d
  stream : s.cb.arrived = s.cb.returned ++ s.cb.rxContents
  room : s.cb.ctrlRts = false → (s.pc none).deciding = false → s.cb.rxCount + uartXchgDataMax + 1 < uartRxBufLen
  overflow : s.cb.statusOverflow = false

namespace RxRing
variable {s : UartEnd T} {c : Option T} {cb : MbUartCb} {p : UartPc}

theorem returned_arrived (h : s.RxRing) : s.cb.returned <+: s.cb.arrived := ⟨_, h.stream.symm⟩

theorem others_read (h : s.RxRing) (hc : (s.pc c).reading) {cb : MbUartCb} (d : Option T) (hd : d ≠ c) :
    (s.pc d).ReadFact cb := by
  refine .of_not ?_
  by_contra hr
  exact hd (h.oneReader d c (by simpa using hr) hc)

theorem eq_none (h : s.RxRing) (hc : (s.pc c).receiving) : c = none := by
  cases c with
  | none => rfl
  | some t => rw [h.isr t] at hc; cases hc

variable [DecidableEq T]

theorem move_none {P : UartPc → Prop} (h : c ≠ none → P (s.pc none)) (hp : P p) : P ((s.move c cb p).pc none) := by
  by_cases hc : none = c
  · subst hc; rwa [move_self]
  · rw [move_of_ne hc]; exact h (Ne.symm hc)

theorem move_isr (h : s.RxRing) (hp : p.receiving → c = none) (t : T) :
    ((s.move c cb p).pc (some t)).receiving = false := by
  by_cases hc : some t = c
  · subst hc
    rw [move_self]
    by_contra hr
    cases hp (by simpa using hr)
  · rw [move_of_ne hc]
    exact h.isr t

theorem not_deciding_of_move (hc : (s.pc c).deciding = false) (h : ((s.move c cb p).pc none).deciding = false) :
    (s.pc none).deciding = false := by
  by_cases hn : none = c
  · rw [hn, hc]
  · rwa [move_of_ne hn] at h

theorem same (h : s.RxRing) (hs : s.cb.RxSame cb) (hc : (s.pc c).deciding = false) (hp : p.receiving → c = none)
    (hread : p.ReadFact cb) (hrx : p.RxFact cb)
    (hone : p.reading → (s.pc c).reading ∨ ∀ d, (s.pc d).reading = false) :
    (s.move c cb p).RxRing where
  rd_lt := by rw [move_cb, hs.rd]; exact h.rd_lt
  wr_lt := by rw [move_cb, hs.wr]; exact h.wr_lt
  isr := h.move_isr hp
  read := move_pc (fun d _ => hs.readFact (h.read d)) hread
  rx := move_none (P := fun p => p.RxFact cb) (fun _ => hs.rxFact h.rx) hrx
  oneReader := move_one h.oneReader hone
  stream := by rw [move_cb, hs.arrived, hs.returned, hs.contents]; exact h.stream
  room hrts hdec := by
    rw [move_cb, hs.rts] at hrts
    rw [move_cb, hs.count]
    exact h.room hrts (not_deciding_of_move hc hdec)
  overflow := by rw [move_cb, hs.overflow]; exact h.overflow

theorem plain (h : s.RxRing) (hs : s.cb.RxSame cb) (hc : (s.pc c).deciding = false) (hp : p.offRx) :
    (s.move c cb p).RxRing := by
  obtain ⟨hr, hx, hread, hrx⟩ := UartPc.offRx_spec cb hp
  exact h.same hs hc (fun hx' => by rw [hx] at hx'; cases hx') hread hrx fun hr' => by rw [hr] at hr'; cases hr'

section
variable {xchg : Nat → BitVec 8}

theorem next_readRd (h : s.RxRing) {bufLen rd : Nat} (hc : s.pc c = .readRd bufLen rd)
    (hn : s.cb.next xchg (s.pc c) = some (cb, p)) : (s.move c cb p).RxRing := by
  have hfact := h.read c
  rw [hc] at hfact hn
  obtain rfl : rd = s.cb.rxRdIdx := hfact
  simp only [MbUartCb.next] at hn
  split at hn
  · cases hn
    exact h.plain ⟨rfl, rfl, rfl, rfl, rfl, rfl, rfl⟩ (by rw [hc]; rfl) rfl
  · cases hn
    generalize hlen : min (count uartRxBufLen s.cb.rxRdIdx s.cb.rxWrIdx) bufLen = len
    have hle : len ≤ count uartRxBufLen s.cb.rxRdIdx s.cb.rxWrIdx := by omega
    obtain ⟨hbytes, hidx⟩ : (uartRxRead s.cb.rxBuf s.cb.rxRdIdx s.cb.rxWrIdx len).1 = s.cb.rxContents.take len ∧ _ :=
      uartRxRead_eq h.rd_lt h.wr_lt hle
    have hlen : (s.cb.rxContents.take len).length = len := by
      rw [List.length_take, s.cb.rxContents_length]
      exact Nat.min_eq_left hle
    refine h.same ⟨rfl, rfl, rfl, rfl, rfl, rfl, rfl⟩ (by rw [hc]; rfl) (fun hr => by cases hr) ?_ trivial
      fun _ => .inl (by rw [hc]; rfl)
    rw [hbytes]
    refine ⟨by rw [hlen]; exact hidx, by rw [hlen]; exact hle, by rw [hlen], h.wr_lt, ?_⟩
    rw [hlen]
    omega

variable {store : IdxStore}

theorem next_readIdx (h : s.RxRing) {bytes : List (BitVec 8)} {dataCnt wr : Nat}
    (hc : s.pc c = .readIdx bytes store dataCnt wr) (hn : s.cb.next xchg (s.pc c) = some (cb, p)) :
    (s.move c cb p).RxRing := by
  have hfact := h.read c
  have hother : ∀ cb d, d ≠ c → (s.pc d).ReadFact cb := fun _ => h.others_read (by rw [hc]; rfl)
  rw [hc] at hfact hn
  obtain ⟨hidx, hle, hbytes, hwr, hcnt⟩ := hfact
  cases hn
  rw [hidx]
  have hcont : contents s.cb.rxBuf uartRxBufLen ((s.cb.rxRdIdx + bytes.length) % uartRxBufLen) s.cb.rxWrIdx =
      s.cb.rxContents.drop bytes.length := contents_drop h.rd_lt h.wr_lt hle
  have hcount : count uartRxBufLen ((s.cb.rxRdIdx + bytes.length) % uartRxBufLen) s.cb.rxWrIdx ≤ s.cb.rxCount :=
    Nat.le_trans (Nat.le_of_eq (count_read h.rd_lt h.wr_lt hle)) (Nat.sub_le ..)
  have hall : bytes ++ s.cb.rxContents.drop bytes.length = s.cb.rxContents :=
    calc bytes ++ s.cb.rxContents.drop bytes.length
        = s.cb.rxContents.take bytes.length ++ s.cb.rxContents.drop bytes.length := by rw [← hbytes]
      _ = s.cb.rxContents := List.take_append_drop ..
  refine {
    rd_lt := add_mod_lt h.rd_lt
    wr_lt := h.wr_lt
    isr := h.move_isr fun hr => by split at hr <;> cases hr
    read := move_pc (hother _) ?_
    rx := move_none (P := fun p => p.RxFact _) (fun _ => h.rx.mono rfl rfl hcount) (by split <;> trivial)
    oneReader := move_one h.oneReader fun _ => .inl (by rw [hc]; rfl)
    stream := ?_
    room := fun hrts hdec => Nat.lt_of_le_of_lt (Nat.add_le_add_right (Nat.add_le_add_right hcount _) _)
      (h.room hrts (not_deciding_of_move (by rw [hc]; rfl) hdec))
    overflow := h.overflow }
  · split
    · rename_i hlt
      have hcount := count_read h.rd_lt hwr (k := bytes.length) (by omega)
      show count _ ((s.cb.rxRdIdx + bytes.length) % uartRxBufLen) wr < _
      omega
    · trivial
  · calc s.cb.arrived = s.cb.returned ++ s.cb.rxContents := h.stream
      _ = s.cb.returned ++ bytes ++ s.cb.rxContents.drop bytes.length := by rw [List.append_assoc, hall]
      _ = _ := congrArg _ hcont.symm

theorem next_readRts (h : s.RxRing) {wr : Nat} (hc : s.pc c = .readRts wr)
    (hnew : (s.pc c).upToDate s.cb) (hn : s.cb.next xchg (s.pc c) = some (cb, p)) : (s.move c cb p).RxRing := by
  have hfact := h.read c
  rw [hc] at hfact hn hnew
  simp only [MbUartCb.next] at hn
  split at hn
  · rename_i hrts
    cases hn
    obtain rfl : s.cb.rxWrIdx = wr := by simpa [UartPc.upToDate, hrts] using hnew
    exact {
      rd_lt := h.rd_lt
      wr_lt := h.wr_lt
      isr := h.move_isr fun hr => by cases hr
      read := move_pc (fun d _ => (h.read d).mono [] rfl (List.append_nil _).symm) trivial
      rx := move_none (P := fun p => p.RxFact _) (fun _ => h.rx.mono rfl rfl (Nat.le_refl _)) trivial
      oneReader := move_one h.oneReader fun hr => by cases hr
      stream := h.stream
      room := fun _ _ => by
        have hlt : s.cb.rxCount < 102 := hfact
        show s.cb.rxCount + 128 + 1 < 257
        omega
      overflow := h.overflow }
  · cases hn
    exact h.plain ⟨rfl, rfl, rfl, rfl, rfl, rfl, rfl⟩ (by rw [hc]; rfl) rfl

variable {k : MbUartCmd}

theorem next_rx (h : s.RxRing) (hc : s.pc none = .rx k)
    (hk : k.cmd = .sendData → s.cb.ctrlRts = false ∧ 0 < k.cmdDataLen ∧ k.cmdDataLen ≤ uartXchgDataMax)
    (hn : s.cb.next xchg (s.pc none) = some (cb, p)) : (s.move none cb p).RxRing := by
  rw [hc] at hn
  cases hn
  cases hcmd : k.cmd with
  | sendState =>
    exact h.plain ⟨rfl, rfl, rfl, rfl, rfl, rfl, rfl⟩ (by rw [hc]; rfl) rfl
  | sendData =>
    obtain ⟨hrts, hlen⟩ := hk hcmd
    have hroom := h.room hrts (by rw [hc]; rfl)
    exact {
      rd_lt := h.rd_lt
      wr_lt := h.wr_lt
      isr := h.move_isr fun _ => rfl
      read := move_pc (fun d _ => (h.read d).mono [] rfl (List.append_nil _).symm) trivial
      rx := by rw [move_self]; exact ⟨hlen, h.rd_lt, Nat.le_refl _, hroom⟩
      oneReader := move_one h.oneReader nofun
      stream := h.stream
      room := fun _ _ => hroom
      overflow := h.overflow }

theorem next_rxRd (h : s.RxRing) {rd : Nat} (hc : s.pc none = .rxRd k rd)
    (hn : s.cb.next xchg (s.pc none) = some (cb, p)) : (s.move none cb p).RxRing := by
  have hfact := h.rx
  rw [hc] at hfact hn
  obtain ⟨⟨hpos, hmax⟩, hrd, hcount, hroom⟩ := hfact
  have hfree := uartRoom_eq hrd h.wr_lt
  simp only [MbUartCb.next] at hn
  rw [if_neg (by omega), if_neg (by omega)] at hn
  cases hn
  have hlen : (slice xchg 0 k.cmdDataLen).length = k.cmdDataLen := by simp [slice]
  generalize slice xchg 0 k.cmdDataLen = bytes at hlen ⊢
  obtain ⟨hbuf, hidx⟩ : (∀ c < uartRxBufLen, (uartRxCopy s.cb.rxBuf rd s.cb.rxWrIdx bytes).1 c =
      fill s.cb.rxBuf uartRxBufLen s.cb.rxWrIdx bytes c) ∧ _ := uartRxCopy_eq hrd h.wr_lt (by omega) fun _ => by omega
  have hcont := contents_fill h.rd_lt h.wr_lt
    (show s.cb.rxCount + bytes.length ≤ uartRxBufLen by omega) hbuf
  exact {
    rd_lt := h.rd_lt
    wr_lt := h.wr_lt
    isr := h.move_isr fun _ => rfl
    read := move_pc (fun d _ => (h.read d).mono [] rfl (hcont.trans (List.append_nil _).symm)) trivial
    rx := by
      rw [move_self]
      exact ⟨hidx, show _ + s.cb.rxCount + _ < _ by omega, fun i hi => fill_new h.wr_lt (by omega) hbuf hi⟩
    oneReader := move_one h.oneReader fun hr => by cases hr
    stream := h.stream.trans (congrArg _ hcont.symm)
    room := fun hrts _ => h.room hrts (by rw [hc]; rfl)
    overflow := h.overflow }

variable {freeCnt : Nat}

theorem next_rxIdx (h : s.RxRing) {bytes : List (BitVec 8)}
    (hc : s.pc none = .rxIdx k bytes store freeCnt) (hn : s.cb.next xchg (s.pc none) = some (cb, p)) :
    (s.move none cb p).RxRing := by
  have hfact := h.rx
  rw [hc] at hfact hn
  obtain ⟨hidx, hroom, hnew⟩ := hfact
  cases hn
  rw [hidx]
  have hlt : s.cb.rxCount + bytes.length < uartRxBufLen := by omega
  have hcont : contents s.cb.rxBuf uartRxBufLen s.cb.rxRdIdx ((s.cb.rxWrIdx + bytes.length) % uartRxBufLen) =
      s.cb.rxContents ++ bytes := contents_append h.rd_lt h.wr_lt hlt (fun _ _ => rfl) hnew
  have hcount : count uartRxBufLen s.cb.rxRdIdx ((s.cb.rxWrIdx + bytes.length) % uartRxBufLen) =
      s.cb.rxCount + bytes.length := count_write h.rd_lt h.wr_lt hlt
  exact {
    rd_lt := h.rd_lt
    wr_lt := add_mod_lt h.wr_lt
    isr := h.move_isr fun _ => rfl
    read := move_pc (fun d _ => (h.read d).mono bytes rfl hcont) trivial
    rx := by
      rw [move_self]
      show freeCnt + count _ s.cb.rxRdIdx ((s.cb.rxWrIdx + bytes.length) % uartRxBufLen) < _
      omega
    oneReader := move_one h.oneReader nofun
    stream := by
      calc s.cb.arrived ++ bytes = s.cb.returned ++ (s.cb.rxContents ++ bytes) := by rw [h.stream, List.append_assoc]
        _ = _ := congrArg _ hcont.symm
    room := nofun
    overflow := h.overflow }

theorem next_rxFree (h : s.RxRing) {txFail : Bool}
    (hc : s.pc none = .rxFree k freeCnt txFail) (hn : s.cb.next xchg (s.pc none) = some (cb, p)) :
    (s.move none cb p).RxRing := by
  have hfact := h.rx
  rw [hc] at hfact hn
  cases hn
  exact {
    rd_lt := h.rd_lt
    wr_lt := h.wr_lt
    isr := h.move_isr nofun
    read := move_pc (fun d _ => (h.read d).mono [] rfl (List.append_nil _).symm) trivial
    rx := by rw [move_self]; trivial
    oneReader := move_one h.oneReader nofun
    stream := h.stream
    room := fun hrts _ => by
      have hfree : ¬ freeCnt ≤ uartXchgDataMax := fun hle => by simp [hle] at hrts
      have hlt : freeCnt + s.cb.rxCount < uartRxBufLen := hfact
      show s.cb.rxCount + uartXchgDataMax + 1 < uartRxBufLen
      omega
    overflow := h.overflow }

theorem next (h : s.RxRing) (hnew : (s.pc c).upToDate s.cb) (hrx : ∀ k, s.pc none = .rx k → k.cmd = .sendData →
      s.cb.ctrlRts = false ∧ 0 < k.cmdDataLen ∧ k.cmdDataLen ≤ uartXchgDataMax)
    (hn : s.cb.next xchg (s.pc c) = some (cb, p)) : (s.move c cb p).RxRing := by
  by_cases hoff : (s.pc c).offRx
  · obtain ⟨hs, hp⟩ := MbUartCb.next_offRx hn hoff
    refine h.plain hs ?_ hp
    cases hc : s.pc c with
    | rxFree => rw [hc] at hoff; cases hoff
    | _ => rfl
  have hisr : (s.pc c).receiving → c = none := h.eq_none
  cases hc : s.pc c with
  | read n =>
    rw [hc] at hn
    cases hn
    exact h.same ⟨rfl, rfl, rfl, rfl, rfl, rfl, rfl⟩ (by rw [hc]; rfl) nofun rfl trivial
      fun _ => .inl (by rw [hc]; rfl)
  | readRd => exact h.next_readRd hc hn
  | readIdx => exact h.next_readIdx hc hn
  | readRts => exact h.next_readRts hc hnew hn
  | rx k => obtain rfl := hisr (by rw [hc]; rfl); exact h.next_rx hc (hrx k hc) hn
  | rxRd => obtain rfl := hisr (by rw [hc]; rfl); exact h.next_rxRd hc hn
  | rxIdx => obtain rfl := hisr (by rw [hc]; rfl); exact h.next_rxIdx hc hn
  | rxFree => obtain rfl := hisr (by rw [hc]; rfl); exact h.next_rxFree hc hn
  | _ => exact absurd (by rw [hc]; rfl) hoff

end

variable {s' : UartEnd T} {a : UartAct T}

theorem step (h : s.RxRing) (hnew : ∀ c xchg, a = .next c xchg → (s.pc c).upToDate s.cb)
    (hone : ∀ t n, a = .read t n → ∀ c, (s.pc c).reading = false) (hrx : ∀ k, s.pc none = .rx k → k.cmd = .sendData →
      s.cb.ctrlRts = false ∧ 0 < k.cmdDataLen ∧ k.cmdDataLen ≤ uartXchgDataMax)
    (hs : s.step a = some s') : s'.RxRing := by
  cases a with
  | read t n =>
    obtain ⟨hidle, rfl⟩ := call_eq hs
    exact h.same ⟨rfl, rfl, rfl, rfl, rfl, rfl, rfl⟩ (by rw [hidle]; rfl) nofun trivial trivial
      fun _ => .inr (hone t n rfl)
  | write t data | devInit t =>
    obtain ⟨hidle, rfl⟩ := call_eq hs
    exact h.plain ⟨rfl, rfl, rfl, rfl, rfl, rfl, rfl⟩ (by rw [hidle]; rfl) rfl
  | rx k =>
    obtain ⟨hidle, rfl⟩ := rx_eq hs
    exact h.same ⟨rfl, rfl, rfl, rfl, rfl, rfl, rfl⟩ (by rw [hidle]; rfl) (fun _ => rfl) trivial trivial
      nofun
  | rsp =>
    obtain ⟨r, hr, rfl⟩ := rsp_eq hs
    exact h.plain ⟨rfl, rfl, rfl, rfl, rfl, rfl, rfl⟩ (by rw [hr]; rfl) rfl
  | txCmpl r =>
    obtain ⟨k, hw, hidle, rfl⟩ := txCmpl_eq hs
    exact h.plain ⟨rfl, rfl, rfl, rfl, rfl, rfl, rfl⟩ (by rw [hidle]; rfl) rfl
  | next c xchg =>
    obtain ⟨cb, p, hn, rfl⟩ := next_eq hs
    exact h.next (hnew c xchg rfl) hrx hn

end RxRing
end UartEnd
end Bk7258
