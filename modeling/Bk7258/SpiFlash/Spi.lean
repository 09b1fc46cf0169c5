import Bk7258.SpiFlash.Qspi

/-!
# The SPI flash driver

Every command is a transfer of its own, for which `bk_spi_master_xfer` allocates two buffers; when it gets no memory the
transfer does not take place, and only `bk_spi_flash_read_id` notices. A chip that is busy ignores what it is sent.
`bk_spi_flash_write` cuts its range into pieces of 256 bytes, wherever the pages begin.
-/

namespace Bk7258

/-- Which transfers take place, for how many status reads the chip is busy after a transfer, and whether `os_malloc`
gives memory when so many transfers have been tried -/
structure SpiEnv where
  xfer : Nat → Bool
  busy : Nat → Nat
  malloc : Nat → Bool

/-- The chip, the status reads for which it is busy, and the transfers tried so far -/
structure SpiSys where
  chip : Nor.Chip
  busy : Nat
  count : Nat

section
variable (env : SpiEnv) (s : SpiSys)

def bkSpiMasterXfer (cmd : Nor.Cmd) : SpiSys :=
  if env.xfer s.count ∧ s.busy = 0 then ⟨s.chip.exec flashPageSize cmd, env.busy s.count, s.count + 1⟩
  else { s with count := s.count + 1 }

def spiFlashIsBusy : Bool × SpiSys :=
  if env.xfer s.count then (decide (s.busy ≠ 0), ⟨s.chip, s.busy - 1, s.count + 1⟩)
  else (false, { s with count := s.count + 1 })

theorem spiFlashIsBusy_lt (h : (spiFlashIsBusy env s).1) : (spiFlashIsBusy env s).2.busy < s.busy := by
  unfold spiFlashIsBusy at h ⊢
  split at h
  · rw [if_pos ‹_›]
    exact Nat.sub_one_lt (of_decide_eq_true h)
  · cases h

def whileBusy (s : SpiSys) : SpiSys :=
  if (spiFlashIsBusy env s).1 = true then whileBusy (spiFlashIsBusy env s).2 else (spiFlashIsBusy env s).2
termination_by s.busy
decreasing_by exact spiFlashIsBusy_lt env s ‹_›

def spiFlashSendCommand (cmd : Nor.Cmd) : SpiSys := bkSpiMasterXfer env s cmd

def sendEnabled (cmd : Nor.Cmd) : SpiSys :=
  let s := whileBusy env s
  let s := spiFlashSendCommand env s .wren
  let s := whileBusy env s
  bkSpiMasterXfer env s cmd

def spiFlashEarse (baseAddr : Nat) (mode : EraseMode) : SpiSys :=
  sendEnabled env s (.erase mode.size (baseAddr % 0x1000000))

def bkSpiFlashErase (baseAddr size : Nat) : SpiSys :=
  (eraseSteps baseAddr size size).foldl (fun s b => spiFlashEarse env s b.2 b.1) s

def spiFlashProgramPage (baseAddr size : Nat) (srcData : Nat → UInt8) : SpiSys × Nat :=
  if size > flashPageSize then (s, 1)
  else if size = 0 then (s, 0)
  else if !env.malloc s.count then (s, 1)
  else (sendEnabled env s (.program (baseAddr % 0x1000000) size srcData), 0)

/-- The loop of `bk_spi_flash_write`; `left` is `size - i`. -/
def spiWriteLoop (s : SpiSys) (baseAddr : Nat) (srcData : Nat → UInt8) (left : Nat) : SpiSys × Nat :=
  if left = 0 then (s, 0)
  else
    let dsize := if left ≥ flashPageSize then flashPageSize else left
    let r := spiFlashProgramPage env s baseAddr dsize srcData
    if r.2 ≠ 0 then (r.1, 1) else spiWriteLoop r.1 (baseAddr + dsize) (Bytes.drop srcData dsize) (left - dsize)
termination_by left
decreasing_by
  unfold flashPageSize
  split <;> omega

def bkSpiFlashWrite (baseAddr : Nat) (srcData : Option (Nat → UInt8)) (size : Nat) : SpiSys × Nat :=
  match srcData with
  | none => (s, 1)
  | some data => if size = 0 then (s, 0) else spiWriteLoop env s baseAddr data size

end

/-- The transfers that are tried from `s` to `t` take place. -/
def SpiEnv.Carries (env : SpiEnv) (s t : SpiSys) : Prop := ∀ k, s.count ≤ k → k < t.count → env.xfer k = true

/-! ## The transfers of a call -/

section
variable {env : SpiEnv} {s t u : SpiSys}

theorem SpiEnv.Carries.left (h : env.Carries s u) (htu : t.count ≤ u.count) : env.Carries s t :=
  fun k hlo hhi => h k hlo (Nat.lt_of_lt_of_le hhi htu)

theorem SpiEnv.Carries.right (h : env.Carries s u) (hst : s.count ≤ t.count) : env.Carries t u :=
  fun k hlo hhi => h k (Nat.le_trans hst hlo) hhi

theorem count_spiFlashIsBusy (env : SpiEnv) (s : SpiSys) : (spiFlashIsBusy env s).2.count = s.count + 1 := by
  unfold spiFlashIsBusy
  split <;> rfl

theorem count_whileBusy (env : SpiEnv) (s : SpiSys) : s.count < (whileBusy env s).count := by
  induction hb : s.busy using Nat.strongRecOn generalizing s with
  | _ n ih =>
    have hc := count_spiFlashIsBusy env s
    rw [whileBusy]
    split
    · rename_i hbusy
      have := ih _ (hb ▸ spiFlashIsBusy_lt env s hbusy) (spiFlashIsBusy env s).2 rfl
      omega
    · omega

theorem count_bkSpiMasterXfer (env : SpiEnv) (s : SpiSys) (cmd : Nor.Cmd) :
    (bkSpiMasterXfer env s cmd).count = s.count + 1 := by
  unfold bkSpiMasterXfer
  split <;> rfl

theorem count_sendEnabled (env : SpiEnv) (s : SpiSys) (cmd : Nor.Cmd) : s.count < (sendEnabled env s cmd).count := by
  unfold sendEnabled spiFlashSendCommand
  have h₁ := count_whileBusy env s
  have h₂ := count_whileBusy env (bkSpiMasterXfer env (whileBusy env s) .wren)
  rw [count_bkSpiMasterXfer] at h₂ ⊢
  omega

theorem count_spiFlashProgramPage (env : SpiEnv) (s : SpiSys) (baseAddr size : Nat) (data : Nat → UInt8) :
    s.count ≤ (spiFlashProgramPage env s baseAddr size data).1.count := by
  unfold spiFlashProgramPage
  split
  · exact Nat.le_refl _
  split
  · exact Nat.le_refl _
  split
  · exact Nat.le_refl _
  · exact Nat.le_of_lt (count_sendEnabled ..)

theorem pieceSize_eq (left : Nat) : (if left ≥ flashPageSize then flashPageSize else left) = min 256 left := by
  unfold flashPageSize
  split <;> omega

theorem count_spiWriteLoop (env : SpiEnv) (s : SpiSys) (baseAddr : Nat) (data : Nat → UInt8) (left : Nat) :
    s.count ≤ (spiWriteLoop env s baseAddr data left).1.count := by
  induction hl : left using Nat.strongRecOn generalizing s baseAddr data left with
  | _ _ ih =>
    subst hl
    rw [spiWriteLoop]
    split
    · exact Nat.le_refl _
    · have hpage := count_spiFlashProgramPage env s baseAddr (min 256 left) data
      simp only [pieceSize_eq]
      split
      · exact hpage
      · exact Nat.le_trans hpage (ih (left - min 256 left) (by omega) _ _ _ _ rfl)

theorem whileBusy_ready (hx : env.Carries s (whileBusy env s)) :
    (whileBusy env s).chip = s.chip ∧ (whileBusy env s).busy = 0 := by
  induction hb : s.busy using Nat.strongRecOn generalizing s with
  | _ n ih =>
    have hread : spiFlashIsBusy env s = (decide (s.busy ≠ 0), ⟨s.chip, s.busy - 1, s.count + 1⟩) := by
      rw [spiFlashIsBusy, if_pos (hx _ (Nat.le_refl _) (count_whileBusy env s))]
    rw [whileBusy, hread] at hx ⊢
    by_cases hz : s.busy = 0
    · rw [if_neg (by simp [hz])]
      exact ⟨rfl, by simp [hz]⟩
    · rw [if_pos (decide_eq_true hz)] at hx ⊢
      exact ih (s.busy - 1) (by omega) (hx.right (Nat.le_succ _)) rfl

theorem bkSpiMasterXfer_ready {cmd : Nor.Cmd} (hx : env.Carries s (bkSpiMasterXfer env s cmd)) (hs : s.busy = 0) :
    (bkSpiMasterXfer env s cmd).chip = s.chip.exec flashPageSize cmd := by
  have hcount := count_bkSpiMasterXfer env s cmd
  rw [bkSpiMasterXfer, if_pos ⟨hx _ (Nat.le_refl _) (by omega), hs⟩]

theorem sendEnabled_chip {cmd : Nor.Cmd} (hx : env.Carries s (sendEnabled env s cmd)) :
    (sendEnabled env s cmd).chip = (s.chip.exec flashPageSize .wren).exec flashPageSize cmd := by
  unfold sendEnabled spiFlashSendCommand at hx ⊢
  dsimp only at hx ⊢
  have c₁ := count_whileBusy env s
  have c₂ := count_bkSpiMasterXfer env (whileBusy env s) .wren
  have c₃ := count_whileBusy env (bkSpiMasterXfer env (whileBusy env s) .wren)
  have c₄ := count_bkSpiMasterXfer env (whileBusy env (bkSpiMasterXfer env (whileBusy env s) .wren)) cmd
  obtain ⟨h₁, hb₁⟩ := whileBusy_ready (hx.left (t := whileBusy env s) (by omega))
  have hx₂ := (hx.right (t := whileBusy env s) (by omega)).left (t := bkSpiMasterXfer env (whileBusy env s) .wren)
    (by omega)
  have hx₃ := hx.right (t := bkSpiMasterXfer env (whileBusy env s) .wren) (by omega)
  obtain ⟨h₃, hb₃⟩ := whileBusy_ready (hx₃.left (t := whileBusy env _) (by omega))
  rw [bkSpiMasterXfer_ready (hx₃.right (Nat.le_of_lt c₃)) hb₃, h₃, bkSpiMasterXfer_ready hx₂ hb₁, h₁]

theorem sendEnabled_refused (hx : ∀ k, env.xfer k = false) (cmd : Nor.Cmd) : (sendEnabled env s cmd).chip = s.chip := by
  have hwait (s : SpiSys) : (whileBusy env s).chip = s.chip := by
    rw [whileBusy, spiFlashIsBusy, hx]
    rfl
  have hxfer (s : SpiSys) (cmd : Nor.Cmd) : (bkSpiMasterXfer env s cmd).chip = s.chip := by
    rw [bkSpiMasterXfer, hx, if_neg (fun h => Bool.false_ne_true h.1)]
  unfold sendEnabled spiFlashSendCommand
  rw [hxfer, hwait, hxfer, hwait]

/-! ## Writing -/

variable {baseAddr size left : Nat} {data : Nat → UInt8}

theorem spiFlashProgramPage_sent (hm : env.malloc s.count = true) (hz : size ≠ 0) (hsize : size ≤ 256) :
    spiFlashProgramPage env s baseAddr size data =
      (sendEnabled env s (.program (baseAddr % 0x1000000) size data), 0) := by
  rw [spiFlashProgramPage, if_neg (show ¬size > flashPageSize from Nat.not_lt.2 hsize), if_neg hz, hm]
  rfl

theorem spiFlashProgramPage_eq (hz : size ≠ 0) (hsize : size ≤ 256)
    (hret : (spiFlashProgramPage env s baseAddr size data).2 = 0) : (spiFlashProgramPage env s baseAddr size data).1 =
      sendEnabled env s (.program (baseAddr % 0x1000000) size data) := by
  unfold spiFlashProgramPage at hret ⊢
  rw [if_neg (show ¬size > flashPageSize from Nat.not_lt.2 hsize), if_neg hz] at hret ⊢
  split at hret
  · cases hret
  · rename_i hm
    rw [if_neg hm]

theorem spiFlashProgramPage_mem (hz : size ≠ 0) (hpage : baseAddr % 256 + size ≤ 256)
    (hend : baseAddr + size ≤ 0x1000000)
    (her : Nor.ErasedOn baseAddr size s.chip.mem) (hret : (spiFlashProgramPage env s baseAddr size data).2 = 0)
    (hx : env.Carries s (spiFlashProgramPage env s baseAddr size data).1) :
    (spiFlashProgramPage env s baseAddr size data).1.chip.mem = Bytes.put baseAddr size data s.chip.mem := by
  rw [spiFlashProgramPage_eq hz (by omega) hret] at hx ⊢
  rw [sendEnabled_chip hx, Nat.mod_eq_of_lt (show baseAddr < 0x1000000 by omega)]
  show Nor.program 256 baseAddr size data s.chip.mem = _
  rw [Nor.program_fits hpage, Nor.meld_erased her]

theorem spiWriteLoop_mem (hpage : baseAddr % 256 = 0 ∨ baseAddr % 256 + left ≤ 256)
    (hend : baseAddr + left ≤ 0x1000000) (her : Nor.ErasedOn baseAddr left s.chip.mem)
    (hret : (spiWriteLoop env s baseAddr data left).2 = 0)
    (hx : env.Carries s (spiWriteLoop env s baseAddr data left).1) :
    (spiWriteLoop env s baseAddr data left).1.chip.mem = Bytes.put baseAddr left data s.chip.mem := by
  induction hl : left using Nat.strongRecOn generalizing s baseAddr data left with
  | _ _ ih =>
    subst hl
    by_cases hz : left = 0
    · rw [spiWriteLoop, if_pos hz, hz, Bytes.put_zero]
    rw [spiWriteLoop, if_neg hz] at hret hx ⊢
    simp only [pieceSize_eq] at hret hx ⊢
    by_cases hr : (spiFlashProgramPage env s baseAddr (min 256 left) data).2 = 0
    · rw [if_neg (not_not_intro hr)] at hret hx ⊢
      have hmem := spiFlashProgramPage_mem (by omega) (by omega) (by omega) (her.mono (Nat.le_refl _) (by omega)) hr
        (hx.left (count_spiWriteLoop ..))
      -- the pieces behind the first one start with a page, or there are none
      have hrest : Nor.ErasedOn (baseAddr + min 256 left) (left - min 256 left)
          (spiFlashProgramPage env s baseAddr (min 256 left) data).1.chip.mem := by
        rw [hmem]
        exact her.rest (by omega) (by omega)
      rw [ih (left - min 256 left) (by omega) (by omega) (by omega) hrest hret
        (hx.right (count_spiFlashProgramPage ..)) rfl, hmem, Bytes.put_drop,
        Nat.add_sub_cancel' (Nat.min_le_right 256 left)]
    · rw [if_pos hr] at hret
      cases hret

variable (env s baseAddr left data) in
/-- What holds of the chip after each piece holds at the end. -/
theorem spiWriteLoop_inv {I : Bytes.Mem → Prop} (hm : ∀ k, env.malloc k = true)
    (hstep : ∀ s baseAddr size data, I s.chip.mem →
      I (sendEnabled env s (.program (baseAddr % 0x1000000) size data)).chip.mem) (h₀ : I s.chip.mem) :
    (spiWriteLoop env s baseAddr data left).2 = 0 ∧ I (spiWriteLoop env s baseAddr data left).1.chip.mem := by
  induction hl : left using Nat.strongRecOn generalizing s baseAddr data left with
  | _ _ ih =>
    subst hl
    by_cases hz : left = 0
    · rw [spiWriteLoop, if_pos hz]
      exact ⟨rfl, h₀⟩
    rw [spiWriteLoop, if_neg hz]
    simp only [pieceSize_eq, spiFlashProgramPage_sent (hm _) (show min 256 left ≠ 0 by omega)
      (Nat.min_le_left ..), ne_eq,
      not_true_eq_false, if_false]
    exact ih (left - min 256 left) (by omega) _ _ _ _ (hstep _ _ _ _ h₀) rfl

end

def erasedChip : SpiSys := ⟨⟨fun _ => 0xFF, false⟩, 0, 0⟩

def slowChip : SpiEnv := ⟨fun _ => true, fun _ => 2, fun _ => true⟩

theorem sendEnabled_slowChip (s : SpiSys) (a n : Nat) (data : Nat → UInt8) :
    (sendEnabled slowChip s (.program a n data)).chip.mem = Nor.program 256 a n data s.chip.mem := by
  rw [sendEnabled_chip fun _ _ _ => rfl]
  rfl

def PagesFit (baseAddr size : Nat) : Prop :=
  baseAddr + size ≤ 0x1000000 ∧ (baseAddr % 256 = 0 ∨ baseAddr % 256 + size ≤ 256)

instance (baseAddr size : Nat) : Decidable (PagesFit baseAddr size) := inferInstanceAs (Decidable (_ ∧ _))

/-- Zeros written behind the chip do not arrive, and those of a piece that crosses its page go to the start of the
page. -/
theorem spiWriteLoop_zeros {baseAddr size : Nat} (hz : size ≠ 0) (hfit : ¬PagesFit baseAddr size) :
    (spiWriteLoop slowChip erasedChip baseAddr (fun _ => 0) size).2 = 0 ∧
      (spiWriteLoop slowChip erasedChip baseAddr (fun _ => 0) size).1.chip.mem ≠
        Bytes.put baseAddr size (fun _ => 0) erasedChip.chip.mem := by
  by_cases hend : baseAddr + size ≤ 0x1000000
  · have hcross : baseAddr % 256 ≠ 0 ∧ 256 < baseAddr % 256 + size := by
      unfold PagesFit at hfit
      omega
    have hpage : spiFlashProgramPage slowChip erasedChip baseAddr (min 256 size) (fun _ => 0) = _ :=
      spiFlashProgramPage_sent rfl (by omega) (Nat.min_le_left ..)
    have hstart : Nor.pageAddr 256 (baseAddr % 0x1000000) (256 - baseAddr % 256) = baseAddr / 256 * 256 := by
      rw [Nor.pageAddr]
      omega
    have hfirst : (sendEnabled slowChip erasedChip (.program (baseAddr % 0x1000000) (min 256 size) fun _ => 0)).chip.mem
        (baseAddr / 256 * 256) = 0 := by
      rw [sendEnabled_slowChip, ← hstart, Nor.program_zero (by omega) rfl]
    have hrest := spiWriteLoop_inv slowChip _ (baseAddr + min 256 size) (size - min 256 size)
      (Bytes.drop (fun _ => 0) (min 256 size)) (I := fun m => m (baseAddr / 256 * 256) = 0) (fun _ => rfl)
      (fun s a n d hI => by rw [sendEnabled_slowChip, Nor.program_of_zero hI]) hfirst
    rw [spiWriteLoop, if_neg hz]
    simp only [pieceSize_eq, hpage, ne_eq, not_true_eq_false, if_false]
    refine ⟨hrest.1, fun he => ?_⟩
    have hback := hrest.2
    rw [he, Bytes.put_of_notMem (by omega)] at hback
    cases hback
  · obtain ⟨hret, hkept⟩ := spiWriteLoop_inv slowChip erasedChip baseAddr size (fun _ => 0)
      (I := fun m => m (baseAddr + size - 1) = 0xFF) (fun _ => rfl)
      (fun s a n d hI => by
        rw [sendEnabled_slowChip, Nor.program_of_ne, hI]
        intro i _
        rw [Nor.pageAddr]
        omega) rfl
    refine ⟨hret, fun he => ?_⟩
    rw [he, Bytes.put_of_mem (by omega)] at hkept
    cases hkept

theorem bkSpiFlashWrite_empty {env : SpiEnv} {s : SpiSys} {baseAddr : Nat} {srcData : Option (Nat → UInt8)}
    (hret : (bkSpiFlashWrite env s baseAddr srcData 0).2 = 0) : ∃ data, srcData = some data ∧
      (bkSpiFlashWrite env s baseAddr srcData 0).1.chip.mem = Bytes.put baseAddr 0 data s.chip.mem := by
  cases srcData with
  | none => cases hret
  | some data => exact ⟨data, rfl, Bytes.put_zero.symm⟩

theorem bkSpiFlashWrite_loop {size : Nat} (hz : size ≠ 0) (env : SpiEnv) (s : SpiSys) (baseAddr : Nat)
    (data : Nat → UInt8) : bkSpiFlashWrite env s baseAddr (some data) size = spiWriteLoop env s baseAddr data size :=
  if_neg hz

/-- A write that returns 0 puts the data in its range and changes nothing else, if and only if the range is on the chip
and crosses no page unless it starts with one, as long as the transfers of the call take place. As one that does not is
not noticed, without that only the empty range is left. -/
theorem bkSpiFlashWrite_put (baseAddr size : Nat) :
    ((∀ env s srcData, Nor.ErasedOn baseAddr size s.chip.mem → (bkSpiFlashWrite env s baseAddr srcData size).2 = 0 →
      env.Carries s (bkSpiFlashWrite env s baseAddr srcData size).1 → ∃ data, srcData = some data ∧
        (bkSpiFlashWrite env s baseAddr srcData size).1.chip.mem = Bytes.put baseAddr size data s.chip.mem) ↔
      size = 0 ∨ PagesFit baseAddr size) ∧
    ((∀ env s srcData, Nor.ErasedOn baseAddr size s.chip.mem → (bkSpiFlashWrite env s baseAddr srcData size).2 = 0 →
      ∃ data, srcData = some data ∧
        (bkSpiFlashWrite env s baseAddr srcData size).1.chip.mem = Bytes.put baseAddr size data s.chip.mem) ↔
      size = 0) := by
  constructor
  · constructor
    · intro h
      by_cases hz : size = 0
      · exact .inl hz
      refine .inr (Decidable.not_not.1 fun hfit => ?_)
      obtain ⟨hret, hne⟩ := spiWriteLoop_zeros hz hfit
      have hput := h slowChip erasedChip (some fun _ => 0) (fun _ _ _ => rfl)
      rw [bkSpiFlashWrite_loop hz] at hput
      obtain ⟨data, hdata, hmem⟩ := hput hret fun _ _ _ => rfl
      cases hdata
      exact hne hmem
    · rintro (rfl | ⟨hend, hpage⟩) env s srcData her hret hx
      · exact bkSpiFlashWrite_empty hret
      by_cases hz : size = 0
      · subst hz
        exact bkSpiFlashWrite_empty hret
      cases srcData with
      | none => cases hret
      | some data =>
        rw [bkSpiFlashWrite_loop hz] at hret hx ⊢
        exact ⟨data, rfl, spiWriteLoop_mem hpage hend her hret hx⟩
  · constructor
    · intro h
      by_contra hz
      -- no transfer takes place, and the chip stays as it is
      let env : SpiEnv := ⟨fun _ => false, fun _ => 0, fun _ => true⟩
      obtain ⟨hret, hkept⟩ := spiWriteLoop_inv env erasedChip baseAddr size (fun _ => 0)
        (I := fun m => m baseAddr = 0xFF) (fun _ => rfl)
        (fun s a n d hI => by rw [sendEnabled_refused (fun _ => rfl), hI]) rfl
      have hput := h env erasedChip (some fun _ => 0) (fun _ _ _ => rfl)
      rw [bkSpiFlashWrite_loop hz] at hput
      obtain ⟨data, hdata, hmem⟩ := hput hret
      cases hdata
      rw [hmem, Bytes.put_of_mem (by omega)] at hkept
      cases hkept
    · rintro rfl env s srcData - hret
      exact bkSpiFlashWrite_empty hret

/-- 256 bytes from the middle of a page: the second half goes to the start of the page. In the second run no transfer
gets its buffers. -/
theorem bkSpiFlashWrite_wraps :
    (let r := bkSpiFlashWrite slowChip erasedChip 0x80 (some fun _ => 0x5A) 0x100
     r.2 = 0 ∧ r.1.chip.mem 0 = 0x5A ∧ r.1.chip.mem 0x100 = 0xFF) ∧
    (let r := bkSpiFlashWrite ⟨fun _ => false, fun _ => 0, fun _ => true⟩ erasedChip 0 (some fun _ => 0x5A) 4
     r.2 = 0 ∧ r.1.chip.mem 0 = 0xFF) := by
  decide +kernel

end Bk7258
