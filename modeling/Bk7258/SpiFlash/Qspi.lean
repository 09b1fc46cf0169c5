import Mathlib.Data.List.Basic
import Bk7258.SpiFlash.Steps

/-!
# The QSPI flash driver

Bytes go through a FIFO of 256 bytes, which is filled and read in words. `addr` is moved on in bytes, but `cmd_data` is
a pointer to words: from the second load on the bytes are at four times their distance. The commands are assumed to be
executed.
-/

namespace Bk7258

inductive QspiCmdCode
  | wrEn
  | wr
  | quadWr
  | rd
  | quadRd
  | erase (mode : EraseMode)
deriving DecidableEq, Repr

structure QspiCmd where
  cmd : QspiCmdCode
  addr : Nat
  dataLen : Nat
deriving DecidableEq, Repr

/-- The chip and the FIFO. `programmed` are the bytes the program commands have carried, with the address each is
for. -/
structure QspiSys where
  chip : Nor.Chip
  fifo : Nat → UInt8
  programmed : List (Nat × UInt8)

abbrev qspiFifoLenMax : Nat := 256

abbrev flashPageSize : Nat := 256

def fifoLoad (size : Nat) : Nat := if size < qspiFifoLenMax then size else qspiFifoLenMax

theorem fifoLoad_eq (size : Nat) : fifoLoad size = min size 256 := by
  unfold fifoLoad
  by_cases h : size < 256
  · rw [if_pos h, Nat.min_eq_left (Nat.le_of_lt h)]
  · rw [if_neg h, Nat.min_eq_right (Nat.not_lt.1 h)]

def fifoBytes (dataLen : Nat) : Nat := 4 * if dataLen % 4 = 0 then dataLen / 4 else dataLen / 4 + 1

namespace QspiSys
variable (s : QspiSys)

/-- `bk_qspi_command`: the address has 24 bits and the length 10. -/
def command (c : QspiCmd) : QspiSys :=
  let addr := c.addr % 0x1000000
  let len := c.dataLen % 0x400
  let program : QspiSys :=
    { s with
      chip := s.chip.exec flashPageSize (.program addr len s.fifo)
      programmed := s.programmed ++ (List.range len).map fun i => ((addr + i) % 0x1000000, s.fifo i) }
  let read : QspiSys := { s with fifo := fun i => if i < len then s.chip.mem ((addr + i) % 0x1000000) else s.fifo i }
  match c.cmd with
  | .wrEn => { s with chip := s.chip.exec flashPageSize .wren }
  | .wr => program
  | .quadWr => program
  | .rd => read
  | .quadRd => read
  | .erase mode => { s with chip := s.chip.exec flashPageSize (.erase mode.size addr) }

def bkQspiWrite (data : Nat → UInt8) (size : Nat) : QspiSys :=
  { s with fifo := fun i => if i < fifoBytes size then data i else s.fifo i }

def bkQspiRead (data : Nat → UInt8) (size : Nat) : Nat → UInt8 :=
    fun i => if i < fifoBytes size then s.fifo i else data i

def bkQspiFlashWren : QspiSys := s.command ⟨.wrEn, 0, 0⟩

end QspiSys

/-- The loop of the page programs; `cmdData` is where `cmd_data` points, in bytes. -/
def pageProgram (code : QspiCmdCode) (s : QspiSys) (addr : Nat) (data : Nat → UInt8) (cmdData size : Nat) : QspiSys :=
  if size = 0 then s
  else
    let cmdDataLen := fifoLoad size
    let s := s.bkQspiFlashWren.bkQspiWrite (Bytes.drop data cmdData) cmdDataLen
    let s := s.command ⟨code, addr, cmdDataLen⟩
    -- `cmd_data += cmd_data_len` on a `uint32_t *`
    pageProgram code s (addr + cmdDataLen) data (cmdData + 4 * cmdDataLen) (size - cmdDataLen)
termination_by size
decreasing_by
  have := fifoLoad_eq size
  omega

def setBufAt (data : Nat → UInt8) (n : Nat) (more : Nat → UInt8) : Nat → UInt8 := fun i =>
  if n ≤ i then more (i - n) else data i

def pageRead (code : QspiCmdCode) (s : QspiSys) (addr : Nat) (data : Nat → UInt8) (cmdData size : Nat) :
    QspiSys × (Nat → UInt8) :=
  if size = 0 then (s, data)
  else
    let cmdDataLen := fifoLoad size
    let s := s.command ⟨code, addr, cmdDataLen⟩
    let data := setBufAt data cmdData (s.bkQspiRead (Bytes.drop data cmdData) cmdDataLen)
    -- as in `pageProgram`
    pageRead code s (addr + cmdDataLen) data (cmdData + 4 * cmdDataLen) (size - cmdDataLen)
termination_by size
decreasing_by
  have := fifoLoad_eq size
  omega

section
variable (s : QspiSys) (addr : Nat) (data : Nat → UInt8) (size : Nat)

def bkQspiFlashSinglePageProgram : QspiSys := pageProgram .wr s addr data 0 size

def bkQspiFlashQuadPageProgram : QspiSys := pageProgram .quadWr s addr data 0 size

def bkQspiFlashSingleRead : QspiSys × (Nat → UInt8) := pageRead .rd s addr data 0 size

def bkQspiFlashQuadRead : QspiSys × (Nat → UInt8) := pageRead .quadRd s addr data 0 size

def bkQspiFlashEraseType (mode : EraseMode) : QspiSys := s.bkQspiFlashWren.command ⟨.erase mode, addr, 0⟩

def bkQspiFlashErase : QspiSys × Bool :=
  if addr ≥ 0x1000000 ∨ size > 0x1000000 ∨ addr + size > 0x1000000 then (s, false)
  else if size = 0 then (s, false)
  else ((eraseSteps addr size size).foldl (fun s b => bkQspiFlashEraseType s b.2 b.1) s, true)

end

/-! ## One FIFO load -/

section
variable {s : QspiSys} {addr size cmdData : Nat} {data : Nat → UInt8} {code : QspiCmdCode}

theorem fifoBytes_le (n : Nat) : n ≤ fifoBytes n := by
  unfold fifoBytes
  split <;> omega

theorem fifoBytes_of_dvd (h : size % 4 = 0) : fifoBytes size = size := by
  unfold fifoBytes
  rw [if_pos h]
  omega

theorem pageProgram_zero : pageProgram code s addr data cmdData 0 = s := by rw [pageProgram, if_pos rfl]

theorem pageRead_zero : pageRead code s addr data cmdData 0 = (s, data) := by rw [pageRead, if_pos rfl]

theorem pageProgram_one (hpos : 0 < size) (hsize : size ≤ 256) : pageProgram code s addr data cmdData size =
      (s.bkQspiFlashWren.bkQspiWrite (Bytes.drop data cmdData) size).command ⟨code, addr, size⟩ := by
  have hlen : fifoLoad size = size := (fifoLoad_eq size).trans (Nat.min_eq_left hsize)
  rw [pageProgram, if_neg (Nat.ne_of_gt hpos)]
  simp only [hlen, Nat.sub_self, pageProgram_zero]

theorem pageRead_one (hpos : 0 < size) (hsize : size ≤ 256) : pageRead code s addr data cmdData size =
      (s.command ⟨code, addr, size⟩,
        setBufAt data cmdData ((s.command ⟨code, addr, size⟩).bkQspiRead (Bytes.drop data cmdData) size)) := by
  have hlen : fifoLoad size = size := (fifoLoad_eq size).trans (Nat.min_eq_left hsize)
  rw [pageRead, if_neg (Nat.ne_of_gt hpos)]
  simp only [hlen, Nat.sub_self, pageRead_zero]

def QspiCmdCode.IsRead (code : QspiCmdCode) : Prop := code = .rd ∨ code = .quadRd

def QspiCmdCode.IsProgram (code : QspiCmdCode) : Prop := code = .wr ∨ code = .quadWr

theorem command_read (hcode : code.IsRead) (hsize : size ≤ 256) : s.command ⟨code, addr, size⟩ =
      { s with fifo := fun i => if i < size then s.chip.mem ((addr + i) % 0x1000000) else s.fifo i } := by
  have hmod : size % 0x400 = size := Nat.mod_eq_of_lt (by omega)
  rcases hcode with rfl | rfl <;> simp only [QspiSys.command, hmod, Nat.mod_add_mod]

theorem command_program (hcode : code.IsProgram) (hsize : size ≤ 256) : s.command ⟨code, addr, size⟩ = { s with
        chip := s.chip.exec flashPageSize (.program (addr % 0x1000000) size s.fifo)
        programmed := s.programmed ++ (List.range size).map fun i => ((addr + i) % 0x1000000, s.fifo i) } := by
  have hmod : size % 0x400 = size := Nat.mod_eq_of_lt (by omega)
  rcases hcode with rfl | rfl <;> simp only [QspiSys.command, hmod, Nat.mod_add_mod]

theorem pageRead_data (hcode : code.IsRead) (hsize : size ≤ 256) (hword : size % 4 = 0) :
    (pageRead code s addr data 0 size).2 = fun i => if i < size then s.chip.mem ((addr + i) % 0x1000000)
      else data i := by
  rcases Nat.eq_zero_or_pos size with rfl | hpos
  · rw [pageRead_zero]
    rfl
  · rw [pageRead_one hpos hsize, command_read hcode hsize]
    funext i
    simp only [setBufAt, Nat.zero_le, if_true, Nat.sub_zero, QspiSys.bkQspiRead, fifoBytes_of_dvd hword, Bytes.drop,
      Nat.zero_add]
    split <;> rfl

theorem pageRead_below {i : Nat} (hi : i < cmdData) : (pageRead code s addr data cmdData size).2 i = data i := by
  induction s, addr, data, cmdData, size using pageRead.induct code with
  | case1 s addr data cmdData => rw [pageRead_zero]
  | case2 s addr data cmdData size hsize len s' data' ih =>
    rw [pageRead, if_neg hsize, ih (by omega)]
    exact if_neg (by omega)

/-- The second load goes to position 1024. -/
theorem pageRead_second (hsize : 256 < size) : (pageRead code s addr data 0 size).2 256 = data 256 := by
  have hload : fifoLoad size = 256 := (fifoLoad_eq size).trans (Nat.min_eq_right (by omega))
  rw [pageRead, if_neg (by omega)]
  simp only [hload]
  rw [pageRead_below (by decide)]
  simp [setBufAt, QspiSys.bkQspiRead, fifoBytes, Bytes.drop]

theorem pageProgram_programmed (hcode : code.IsProgram) (hsize : size ≤ 256) :
    (pageProgram code s addr data 0 size).programmed =
      s.programmed ++ (List.range size).map fun i => ((addr + i) % 0x1000000, data i) := by
  rcases Nat.eq_zero_or_pos size with rfl | hpos
  · rw [pageProgram_zero]
    exact (List.append_nil _).symm
  · rw [pageProgram_one hpos hsize, command_program hcode hsize]
    refine congrArg (s.programmed ++ ·) (List.map_congr_left fun i hi => ?_)
    have hi := List.mem_range.1 hi
    have hfifo := fifoBytes_le size
    simp only [QspiSys.bkQspiWrite, Bytes.drop, Nat.zero_add]
    rw [if_pos (by omega)]

end

def pagesChip : QspiSys := ⟨⟨fun a => (a / 256 + 1).toUInt8, false⟩, fun _ => 0, []⟩

/-- Reads and programs take each byte to and from its own place exactly up to one FIFO load. -/
theorem qspi_one_load {size : Nat} (hword : size % 4 = 0) :
    (∀ (s : QspiSys) (addr : Nat) (data : Nat → UInt8),
      ((bkQspiFlashSingleRead s addr data size).2 =
        fun i => if i < size then s.chip.mem ((addr + i) % 0x1000000) else data i) ∧
      ((bkQspiFlashQuadRead s addr data size).2 =
        fun i => if i < size then s.chip.mem ((addr + i) % 0x1000000) else data i) ∧
      (bkQspiFlashSinglePageProgram s addr data size).programmed =
        s.programmed ++ (List.range size).map (fun i => ((addr + i) % 0x1000000, data i)) ∧
      (bkQspiFlashQuadPageProgram s addr data size).programmed =
        s.programmed ++ (List.range size).map fun i => ((addr + i) % 0x1000000, data i)) ↔ size ≤ 256 := by
  constructor
  · intro h
    by_contra hlarge
    have hread := congrFun (h pagesChip 0 fun _ => 0).1 256
    rw [if_pos (by omega), bkQspiFlashSingleRead, pageRead_second (by omega)] at hread
    exact absurd hread (by decide)
  · intro hsize s addr data
    exact ⟨pageRead_data (.inl rfl) hsize hword, pageRead_data (.inr rfl) hsize hword,
      pageProgram_programmed (.inl rfl) hsize, pageProgram_programmed (.inr rfl) hsize⟩

theorem qspi_one_load_pages :
    (bkQspiFlashSingleRead pagesChip 0x1FC (fun _ => 0xEE) 8).2 = (fun i =>
        if i < 8 then pagesChip.chip.mem ((0x1FC + i) % 0x1000000) else 0xEE) ∧
      (bkQspiFlashQuadPageProgram pagesChip 0x1FC (fun i => i.toUInt8) 8).programmed =
        (List.range 8).map fun i => ((0x1FC + i) % 0x1000000, i.toUInt8) := by
  have h := (@qspi_one_load 8 (by decide)).2 (by decide) pagesChip 0x1FC
  exact ⟨(h fun _ => 0xEE).1, (h fun i => i.toUInt8).2.2.2⟩

/-- With 260 bytes the last four of a read go to position 1024 of the buffer, and those of a program come from there. -/
theorem qspi_second_load :
    (let single := (bkQspiFlashSingleRead pagesChip 0 (fun _ => 0xEE) 260).2
     let quad := (bkQspiFlashQuadRead pagesChip 0 (fun _ => 0xEE) 260).2
     pagesChip.chip.mem 256 = 2 ∧ single 256 = 0xEE ∧ single 1024 = 2 ∧ quad 256 = 0xEE ∧ quad 1024 = 2) ∧
    (let data : Nat → UInt8 := fun i => (i / 256).toUInt8
     data 256 = 1 ∧ (bkQspiFlashSinglePageProgram pagesChip 0 data 260).programmed[256]? = some (256, 4) ∧
       (bkQspiFlashQuadPageProgram pagesChip 0 data 260).programmed[256]? = some (256, 4)) := by
  decide +kernel

end Bk7258
