import Mathlib.Logic.Function.Basic

/-!
# Mailbox words, headers and logical channel ids

A mailbox message is four words (`mailbox_data_t`); the channel layer reads the first of them through the bit fields of
`phy_chnnl_hdr_t`, an application through those of `mb_chnl_hdr_t`. A logical channel id is one byte: destination CPU,
source CPU, index.
-/

namespace Bk7258

inductive BkErr
  | ok
  | fail
  | errNotInit
  | errParam
  | errOpen
  | errState
  | errNullParam
  | errNotSupport
  | errBusy
  | errMailboxSrcDst
  | errMailboxTimeout
  | errMailboxNotInit
  | kTimeoutErr
deriving DecidableEq, Repr

/-- `mailbox_data_t`; also the bytes of `mb_chnl_cmd_t`, `mb_chnl_ack_t` and `mb_phy_chnl_cmd_t`. -/
structure MailboxData where
  param0 : BitVec 32
  param1 : BitVec 32
  param2 : BitVec 32
  param3 : BitVec 32
deriving DecidableEq, Repr

structure PhyChnnlHdr where
  cmd : BitVec 8
  state : BitVec 4
  ctrl : BitVec 4
  txSeq : BitVec 8
  logicalChnl : BitVec 8
deriving DecidableEq, Repr

namespace PhyChnnlHdr

def data (h : PhyChnnlHdr) : BitVec 32 :=
  h.logicalChnl ++ h.txSeq ++ h.ctrl ++ h.state ++ h.cmd

def ofData (w : BitVec 32) : PhyChnnlHdr where
  cmd := w.extractLsb' 0 8
  state := w.extractLsb' 8 4
  ctrl := w.extractLsb' 12 4
  txSeq := w.extractLsb' 16 8
  logicalChnl := w.extractLsb' 24 8

@[simp] theorem ofData_data (h : PhyChnnlHdr) : ofData h.data = h := by
  cases h with
  | mk cmd state ctrl txSeq logicalChnl =>
    simp only [ofData, data, mk.injEq]
    refine ⟨?_, ?_, ?_, ?_, ?_⟩
    all_goals
      apply BitVec.eq_of_getLsbD_eq
      intro i hi
      simp only [BitVec.getLsbD_extractLsb', BitVec.getLsbD_append, hi, decide_true, Bool.true_and]
    · simp [hi]
    · have h1 : ¬ 8 + i < 8 := by omega
      simp [h1, hi]
    · have h1 : ¬ 12 + i < 8 := by omega
      have h2 : ¬ 12 + i - 8 < 4 := by omega
      have h3 : 12 + i - 8 - 4 = i := by omega
      simp [h1, h2, h3, hi]
    · have h1 : ¬ 16 + i < 8 := by omega
      have h2 : ¬ 16 + i - 8 < 4 := by omega
      have h3 : ¬ 16 + i - 8 - 4 < 4 := by omega
      have h4 : 16 + i - 8 - 4 - 4 = i := by omega
      simp [h1, h2, h3, h4, hi]
    · have h1 : ¬ 24 + i < 8 := by omega
      have h2 : ¬ 24 + i - 8 < 4 := by omega
      have h3 : ¬ 24 + i - 8 - 4 < 4 := by omega
      have h4 : ¬ 24 + i - 8 - 4 - 4 < 8 := by omega
      have h5 : 24 + i - 8 - 4 - 4 - 8 = i := by omega
      simp [h1, h2, h3, h4, h5]

end PhyChnnlHdr

namespace MailboxData

def hdr (m : MailboxData) : PhyChnnlHdr := .ofData m.param0

def setHdr (m : MailboxData) (h : PhyChnnlHdr) : MailboxData := { m with param0 := h.data }

section
variable (m : MailboxData) (h : PhyChnnlHdr)
include m h

@[simp] theorem hdr_setHdr : (m.setHdr h).hdr = h := by
  simp [hdr, setHdr]

@[simp] theorem setHdr_param1 : (m.setHdr h).param1 = m.param1 := rfl
@[simp] theorem setHdr_param2 : (m.setHdr h).param2 = m.param2 := rfl
@[simp] theorem setHdr_param3 : (m.setHdr h).param3 = m.param3 := rfl

end

def payload (m : MailboxData) : BitVec 8 × BitVec 32 × BitVec 32 × BitVec 32 :=
  (m.hdr.cmd, m.param1, m.param2, m.param3)

end MailboxData

/-! ### Logical channel ids -/

def getSrcCpuId (logChnl : BitVec 8) : Nat := ((logChnl &&& 0x30#8) >>> 4).toNat

def getDstCpuId (logChnl : BitVec 8) : Nat := ((logChnl &&& 0xC0#8) >>> 6).toNat

def getLogChnlId (logChnl : BitVec 8) : Nat := (logChnl &&& 0x0F#8).toNat

def cpxLogChnlStart (srcCpu dstCpu : Nat) : BitVec 8 :=
  ((BitVec.ofNat 8 dstCpu <<< 6) &&& 0xC0#8) + ((BitVec.ofNat 8 srcCpu <<< 4) &&& 0x30#8)

/-- The id of channel `idx` from `srcCpu` to `dstCpu`: `CPX_LOG_CHNL_START(src, dst) + idx`. -/
def logChnlOf (srcCpu dstCpu idx : Nat) : BitVec 8 := cpxLogChnlStart srcCpu dstCpu + BitVec.ofNat 8 idx

section
variable {src dst idx : Nat}

private theorem logChnlOf_fields : ∀ (s d : Fin 4) (i : Fin 16),
    getSrcCpuId (logChnlOf s d i) = s ∧ getDstCpuId (logChnlOf s d i) = d ∧
      getLogChnlId (logChnlOf s d i) = i := by decide

variable (hs : src < 4) (hd : dst < 4) (hi : idx < 16)
include hs hd hi

theorem getSrcCpuId_logChnlOf : getSrcCpuId (logChnlOf src dst idx) = src :=
  (logChnlOf_fields ⟨src, hs⟩ ⟨dst, hd⟩ ⟨idx, hi⟩).1

theorem getDstCpuId_logChnlOf : getDstCpuId (logChnlOf src dst idx) = dst :=
  (logChnlOf_fields ⟨src, hs⟩ ⟨dst, hd⟩ ⟨idx, hi⟩).2.1

theorem getLogChnlId_logChnlOf :
    getLogChnlId (logChnlOf src dst idx) = idx :=
  (logChnlOf_fields ⟨src, hs⟩ ⟨dst, hd⟩ ⟨idx, hi⟩).2.2

end

theorem logChnlOf_fields_eq (l : BitVec 8) : logChnlOf (getSrcCpuId l) (getDstCpuId l) (getLogChnlId l) = l := by
  revert l; decide

end Bk7258
