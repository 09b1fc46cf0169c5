import Bk7258.SpiFlash.Qspi

/-!
# Writing and reading a range with the QSPI driver

`bk_qspi_flash_write` programs a first page that does not begin with the range as a whole; then whole pages; then the
front of a last page. `bk_qspi_flash_read` reads 256 bytes at a time. The range is on a chip of 16 MB, and sums do not
wrap around.
-/

namespace Bk7258

section
variable (data : Nat → UInt8)

def writeHead (s : QspiSys) (baseAddr size : Nat) (buf : Nat → UInt8) : QspiSys × (Nat → UInt8) × Nat :=
  let writeAddr := baseAddr - baseAddr % flashPageSize
  let r := bkQspiFlashQuadRead s writeAddr buf qspiFifoLenMax
  let pageWriteLen := qspiFifoLenMax - baseAddr % flashPageSize
  let writeLen := if pageWriteLen > size then size else pageWriteLen
  let buf := Bytes.put (baseAddr % flashPageSize) writeLen data r.2
  (bkQspiFlashQuadPageProgram r.1 writeAddr buf qspiFifoLenMax, buf, writeLen)

/-- The loop over whole pages: the system, `write_addr`, `offset` and `left_len` behind it. As long as it goes on there
are bytes left. -/
def writePages (pageEnd : Nat) :
    (fuel : Nat) → (s : QspiSys) → (writeAddr offset leftLen : Nat) → QspiSys × Nat × Nat × Nat
  | 0, s, writeAddr, offset, leftLen => (s, writeAddr, offset, leftLen)
  | fuel + 1, s, writeAddr, offset, leftLen =>
    if writeAddr < pageEnd then
      let writeLen := if leftLen > qspiFifoLenMax then qspiFifoLenMax else leftLen
      let s := bkQspiFlashQuadPageProgram s writeAddr (Bytes.drop data offset) writeLen
      writePages pageEnd fuel s (writeAddr + writeLen) (offset + writeLen) (leftLen - writeLen)
    else (s, writeAddr, offset, leftLen)

def writeTail (s : QspiSys) (lastAddr writeAddr offset : Nat) (buf : Nat → UInt8) : QspiSys :=
  if lastAddr % flashPageSize ≠ 0 then
    let r := bkQspiFlashQuadRead s writeAddr buf qspiFifoLenMax
    let writeLen := lastAddr % flashPageSize
    let buf := Bytes.put 0 writeLen (Bytes.drop data offset) r.2
    bkQspiFlashQuadPageProgram r.1 writeAddr buf writeLen
  else s

def writeRest (s : QspiSys) (baseAddr size offset : Nat) (buf : Nat → UInt8) : QspiSys :=
  let lastAddr := baseAddr + size
  let r := writePages data (lastAddr - lastAddr % flashPageSize) size s (baseAddr + offset) offset (size - offset)
  if r.2.2.2 = 0 then r.1 else writeTail data r.1 lastAddr r.2.1 r.2.2.1 buf

def bkQspiFlashWrite (s : QspiSys) (baseAddr size : Nat) : QspiSys :=
  if baseAddr % flashPageSize ≠ 0 then
    let r := writeHead data s baseAddr size fun _ => 0
    if size - r.2.2 = 0 then r.1 else writeRest data r.1 baseAddr size r.2.2 r.2.1
  else writeRest data s baseAddr size 0 fun _ => 0

end

/-- The loop of `bk_qspi_flash_read`; `left_len` wraps around in the last step. -/
def flashReadLoop (lastAddr : Nat) (s : QspiSys) (buf : Nat → UInt8) (addr offset readLen leftLen : Nat)
    (data : Nat → UInt8) : QspiSys × (Nat → UInt8) :=
  if addr < lastAddr then
    let offset := offset + readLen
    let readLen := if leftLen ≥ qspiFifoLenMax then qspiFifoLenMax else leftLen
    let r := bkQspiFlashQuadRead s addr buf qspiFifoLenMax
    flashReadLoop lastAddr r.1 r.2 (addr + qspiFifoLenMax) offset readLen
      ((leftLen + 0x100000000 - qspiFifoLenMax) % 0x100000000) (Bytes.put offset readLen r.2 data)
  else (s, data)
termination_by lastAddr - addr
decreasing_by
  simp only [qspiFifoLenMax]
  omega

def bkQspiFlashRead (s : QspiSys) (baseAddr : Nat) (data : Nat → UInt8) (size : Nat) : QspiSys × (Nat → UInt8) :=
  flashReadLoop (baseAddr + size) s (fun _ => 0) baseAddr 0 0 size data

/-! ## One page -/

section
variable {s : QspiSys} {addr size : Nat} {data buf : Nat → UInt8}

theorem quadRead_chip : (bkQspiFlashQuadRead s addr buf 256).1.chip = s.chip := by
  rw [bkQspiFlashQuadRead, pageRead_one (by decide) (by decide), command_read (.inr rfl) (by decide)]

theorem quadRead_data (i : Nat) (hi : i < 256) :
    (bkQspiFlashQuadRead s addr buf 256).2 i = s.chip.mem ((addr + i) % 0x1000000) := by
  rw [bkQspiFlashQuadRead, pageRead_data (.inr rfl) (by decide) (by decide)]
  exact if_pos hi

theorem quadPageProgram_mem (hpage : addr % 256 + size ≤ 256) (hend : addr + size ≤ 0x1000000) :
    (bkQspiFlashQuadPageProgram s addr data size).chip.mem = Nor.meld addr size data s.chip.mem := by
  rcases Nat.eq_zero_or_pos size with rfl | hpos
  · rw [bkQspiFlashQuadPageProgram, pageProgram_zero]
    funext x
    exact (if_neg (by omega)).symm
  · rw [bkQspiFlashQuadPageProgram, pageProgram_one hpos (by omega), command_program (.inr rfl) (by omega),
      Nat.mod_eq_of_lt (show addr < 0x1000000 by omega)]
    show Nor.program 256 addr size _ s.chip.mem = _
    rw [Nor.program_fits hpage]
    refine Nor.meld_congr fun i hi => ?_
    show (if i < fifoBytes size then Bytes.drop data 0 i else _) = _
    rw [if_pos (Nat.lt_of_lt_of_le hi (fifoBytes_le size)), Bytes.drop, Nat.zero_add]

theorem quadPageProgram_erased (hpage : addr % 256 + size ≤ 256) (hend : addr + size ≤ 0x1000000)
    (her : Nor.ErasedOn addr size s.chip.mem) :
    (bkQspiFlashQuadPageProgram s addr data size).chip.mem = Bytes.put addr size data s.chip.mem := by
  rw [quadPageProgram_mem hpage hend, Nor.meld_erased her]

/-! ## The three parts of a write -/

theorem writeHead_mem (data buf : Nat → UInt8) {baseAddr : Nat} (hend : baseAddr + size ≤ 0x1000000)
    (hbase : baseAddr % 256 ≠ 0)
    (her : Nor.ErasedOn baseAddr size s.chip.mem) :
    (writeHead data s baseAddr size buf).2.2 = min size (256 - baseAddr % 256) ∧
      (writeHead data s baseAddr size buf).1.chip.mem =
        Bytes.put baseAddr (min size (256 - baseAddr % 256)) data s.chip.mem := by
  have hlen : (if 256 - baseAddr % 256 > size then size else 256 - baseAddr % 256) =
      min size (256 - baseAddr % 256) := by
    split <;> omega
  refine ⟨hlen, ?_⟩
  have hr : (writeHead data s baseAddr size buf).1 =
      bkQspiFlashQuadPageProgram (bkQspiFlashQuadRead s (baseAddr - baseAddr % 256) buf 256).1
        (baseAddr - baseAddr % 256)
        (Bytes.put (baseAddr % 256) (if 256 - baseAddr % 256 > size then size else 256 - baseAddr % 256) data
          (bkQspiFlashQuadRead s (baseAddr - baseAddr % 256) buf 256).2) 256 := rfl
  rw [hr, hlen, quadPageProgram_mem (by omega) (by omega), quadRead_chip]
  -- the whole page is programmed: what is in front of the range and behind it with its own bytes
  refine Nor.meld_part (by omega) (by omega) (her.mono (Nat.le_refl _) (by omega)) ?_ ?_
  · intro x h₁ h₂
    rw [Bytes.put_of_mem (by omega)]
    congr 1
    omega
  · intro x h₁ h₂ hout
    rw [Bytes.put_of_notMem (by omega), quadRead_data _ (by omega)]
    congr 1
    omega

theorem writePages_mem (data : Nat → UInt8) (fuel : Nat) (s : QspiSys) (writeAddr offset leftLen : Nat)
    (haddr : writeAddr % 256 = 0) (hfuel : leftLen ≤ fuel) (hend : writeAddr + leftLen ≤ 0x1000000)
    (her : Nor.ErasedOn writeAddr leftLen s.chip.mem) :
    let r := writePages data (writeAddr + leftLen - (writeAddr + leftLen) % 256) fuel s writeAddr offset leftLen
    r.1.chip.mem = Bytes.put writeAddr (leftLen - leftLen % 256) (Bytes.drop data offset) s.chip.mem ∧
      r.2 = (writeAddr + (leftLen - leftLen % 256), offset + (leftLen - leftLen % 256), leftLen % 256) := by
  induction fuel generalizing s writeAddr offset leftLen with
  | zero =>
    have hz : leftLen = 0 := Nat.le_zero.1 hfuel
    subst hz
    exact ⟨Bytes.put_zero.symm, rfl⟩
  | succ fuel ih =>
    rw [writePages]
    by_cases hlt : writeAddr < writeAddr + leftLen - (writeAddr + leftLen) % 256
    · -- a whole page is left
      have hlen : (if leftLen > 256 then 256 else leftLen) = 256 := by
        split <;> omega
      have hmem : (bkQspiFlashQuadPageProgram s writeAddr (Bytes.drop data offset) 256).chip.mem =
          Bytes.put writeAddr 256 (Bytes.drop data offset) s.chip.mem :=
        quadPageProgram_erased (by omega) (by omega) (her.mono (Nat.le_refl _) (by omega))
      have her' : Nor.ErasedOn (writeAddr + 256) (leftLen - 256)
          (bkQspiFlashQuadPageProgram s writeAddr (Bytes.drop data offset) 256).chip.mem := by
        rw [hmem]
        exact her.rest (by omega) (by omega)
      obtain ⟨hm, hr⟩ := ih _ (writeAddr + 256) (offset + 256) (leftLen - 256) (by omega) (by omega) (by omega) her'
      have hsum : writeAddr + 256 + (leftLen - 256) = writeAddr + leftLen := by omega
      have hmod : (leftLen - 256) % 256 = leftLen % 256 := by omega
      have hpages : 256 + (leftLen - 256 - leftLen % 256) = leftLen - leftLen % 256 := by omega
      rw [hsum, hmod] at hm hr
      simp only [if_pos hlt, hlen]
      constructor
      · rw [hm, hmem, Bytes.drop_add, Bytes.put_drop, hpages]
      · rw [hr, Nat.add_assoc, Nat.add_assoc, hpages]
    · have hz : leftLen - leftLen % 256 = 0 := by omega
      rw [if_neg hlt, hz]
      refine ⟨Bytes.put_zero.symm, ?_⟩
      rw [Nat.add_zero, Nat.add_zero, show leftLen % 256 = leftLen by omega]

theorem writeTail_mem {lastAddr writeAddr offset : Nat} (haddr : writeAddr + lastAddr % 256 = lastAddr)
    (hend : lastAddr ≤ 0x1000000) (her : Nor.ErasedOn writeAddr (lastAddr % 256) s.chip.mem) :
    (writeTail data s lastAddr writeAddr offset buf).chip.mem =
      Bytes.put writeAddr (lastAddr % 256) (Bytes.drop data offset) s.chip.mem := by
  simp only [writeTail, flashPageSize, qspiFifoLenMax]
  by_cases hz : lastAddr % 256 = 0
  · rw [if_neg (show ¬lastAddr % 256 ≠ 0 from not_not_intro hz), hz, Bytes.put_zero]
  · rw [if_pos (show lastAddr % 256 ≠ 0 from hz),
      quadPageProgram_erased (by omega) (by omega) (by rw [quadRead_chip]; exact her), quadRead_chip]
    refine Bytes.put_congr fun i hi => ?_
    rw [Bytes.put_of_mem (by omega), Nat.sub_zero]

theorem writeRest_mem {baseAddr offset : Nat} (haddr : (baseAddr + offset) % 256 = 0) (hoff : offset ≤ size)
    (hend : baseAddr + size ≤ 0x1000000) (her : Nor.ErasedOn (baseAddr + offset) (size - offset) s.chip.mem) :
    (writeRest data s baseAddr size offset buf).chip.mem =
      Bytes.put (baseAddr + offset) (size - offset) (Bytes.drop data offset) s.chip.mem := by
  obtain ⟨hm, hr⟩ := writePages_mem data size s (baseAddr + offset) offset (size - offset) haddr (by omega)
    (by omega) her
  have hsum : baseAddr + offset + (size - offset) = baseAddr + size := by omega
  rw [hsum] at hm hr
  have hmod : (size - offset) % 256 = (baseAddr + size) % 256 := by omega
  simp only [writeRest, flashPageSize, hr]
  by_cases hz : (size - offset) % 256 = 0
  · rw [if_pos hz, hm, hz, Nat.sub_zero]
  · rw [if_neg hz, writeTail_mem (by omega) hend, hm]
    · rw [Bytes.drop_add, Bytes.put_drop, ← hmod, Nat.sub_add_cancel (Nat.mod_le _ _)]
    · rw [hm]
      exact her.rest (by omega) (by omega)

theorem bkQspiFlashWrite_mem {baseAddr : Nat} (hend : baseAddr + size ≤ 0x1000000)
    (her : Nor.ErasedOn baseAddr size s.chip.mem) :
    (bkQspiFlashWrite data s baseAddr size).chip.mem = Bytes.put baseAddr size data s.chip.mem := by
  unfold bkQspiFlashWrite
  by_cases hbase : baseAddr % 256 = 0
  · rw [if_neg (show ¬baseAddr % 256 ≠ 0 from not_not_intro hbase), writeRest_mem hbase (Nat.zero_le _) hend her]
    exact Bytes.put_congr fun i _ => congrArg data (Nat.zero_add i)
  · obtain ⟨hlen, hmem⟩ := writeHead_mem data (fun _ => 0) hend hbase her
    rw [if_pos (show baseAddr % 256 ≠ 0 from hbase)]
    simp only [hlen]
    by_cases hz : size - min size (256 - baseAddr % 256) = 0
    · rw [if_pos hz, hmem, show min size (256 - baseAddr % 256) = size by omega]
    · rw [if_neg hz, writeRest_mem (by omega) (by omega) hend, hmem, Bytes.put_drop,
        Nat.add_sub_cancel' (Nat.min_le_left _ _)]
      rw [hmem]
      exact her.rest (by omega) (by omega)

end

/-! ## Reading -/

theorem flashReadLoop_run {lastAddr : Nat} (hend : lastAddr ≤ 0x1000000) (s : QspiSys) (buf : Nat → UInt8)
    (addr offset readLen : Nat) (data : Nat → UInt8) :
    (flashReadLoop lastAddr s buf addr offset readLen (lastAddr - addr) data).1.chip = s.chip ∧
      (flashReadLoop lastAddr s buf addr offset readLen (lastAddr - addr) data).2 =
        Bytes.put (offset + readLen) (lastAddr - addr) (Bytes.drop s.chip.mem addr) data := by
  induction hn : lastAddr - addr using Nat.strongRecOn generalizing s buf addr offset readLen data with
  | _ _ ih =>
    subst hn
    rw [flashReadLoop]
    by_cases hlt : addr < lastAddr
    · have hlen : (if lastAddr - addr ≥ 256 then 256 else lastAddr - addr) = min 256 (lastAddr - addr) := by
        split <;> omega
      have hchip : (bkQspiFlashQuadRead s addr buf 256).1.chip = s.chip := quadRead_chip
      have hcopy : Bytes.put (offset + readLen) (min 256 (lastAddr - addr))
        (bkQspiFlashQuadRead s addr buf 256).2 data =
          Bytes.put (offset + readLen) (min 256 (lastAddr - addr)) (Bytes.drop s.chip.mem addr) data := by
        refine Bytes.put_congr fun i hi => ?_
        rw [quadRead_data i (by omega), Nat.mod_eq_of_lt (by omega)]
        rfl
      simp only [if_pos hlt, hlen, hcopy]
      by_cases hmore : addr + 256 < lastAddr
      · -- `left_len` wraps around only after the last page, where it is not used any more
        have hleft : (lastAddr - addr + 0x100000000 - 256) % 0x100000000 = lastAddr - (addr + 256) := by omega
        obtain ⟨hc, hd⟩ := ih (lastAddr - (addr + 256)) (by omega) (bkQspiFlashQuadRead s addr buf 256).1
          (bkQspiFlashQuadRead s addr buf 256).2 (addr + 256) (offset + readLen) (min 256 (lastAddr - addr))
          (Bytes.put (offset + readLen) (min 256 (lastAddr - addr)) (Bytes.drop s.chip.mem addr) data) rfl
        rw [hleft]
        refine ⟨hc.trans hchip, hd.trans ?_⟩
        rw [hchip, Nat.min_eq_left (show 256 ≤ lastAddr - addr by omega), Bytes.drop_add, Bytes.put_drop,
          show 256 + (lastAddr - (addr + 256)) = lastAddr - addr by omega]
      · rw [flashReadLoop, if_neg hmore]
        refine ⟨hchip, ?_⟩
        rw [Nat.min_eq_right (by omega)]
    · rw [if_neg hlt, Nat.sub_eq_zero_of_le (Nat.not_lt.1 hlt), Bytes.put_zero]
      exact ⟨rfl, rfl⟩

/-- What is written onto erased bytes is what is read back, and no other byte of the chip has changed. -/
theorem qspi_write_read (s : QspiSys) {baseAddr size : Nat} (data : Nat → UInt8) (hend : baseAddr + size ≤ 0x1000000)
    (her : Nor.ErasedOn baseAddr size s.chip.mem) :
    (bkQspiFlashWrite data s baseAddr size).chip.mem = Bytes.put baseAddr size data s.chip.mem ∧
      ∀ out, (bkQspiFlashRead (bkQspiFlashWrite data s baseAddr size) baseAddr out size).2 =
        Bytes.put 0 size data out := by
  have hmem : (bkQspiFlashWrite data s baseAddr size).chip.mem = _ := bkQspiFlashWrite_mem hend her
  refine ⟨hmem, fun out => ?_⟩
  have hread := (flashReadLoop_run hend (bkQspiFlashWrite data s baseAddr size) (fun _ => 0) baseAddr 0 0 out).2
  rw [Nat.add_sub_cancel_left, hmem] at hread
  refine hread.trans (Bytes.put_congr fun i hi => ?_)
  rw [Bytes.drop, Bytes.put_of_mem (by omega), Nat.add_sub_cancel_left]

theorem qspi_write_read_three :
    let s : QspiSys := ⟨⟨fun a => if a < 0x80 then 0 else 0xFF, false⟩, fun _ => 0, []⟩
    (bkQspiFlashWrite (fun i => i.toUInt8) s 0x80 0x200).chip.mem =
      Bytes.put 0x80 0x200 (fun i => i.toUInt8) s.chip.mem := by
  intro s
  refine (qspi_write_read s (fun i => i.toUInt8) (by decide) fun x hx _ => ?_).1
  exact if_neg (Nat.not_lt.2 hx)

end Bk7258
