import Mathlib.Algebra.Group.Nat.Defs
import Bk7258.Lib.Lts
import Bk7258.Lib.Crc32

/-!
# Reading the flash through the server on the CP

`bk_flash_read_bytes` asks the flash server for 512 bytes at a time; `flash_read_bytes` does one such read under
`flash_mutex`, and a failed read is tried once more. The server answers every request once and in order, after any
delay; the socket holds one received message. The client does not compare the address of an answer with its own. `addr`
has 24 bits in `flash_cmd_t`.
-/

namespace Bk7258
open Lts

inductive FlashErr
  | ok
  | fail
  | errNoMem
  | errNullParam
  | errFlashAddrOutOfRange
  | errFlashPartitionNotFound
deriving DecidableEq, Repr

inductive FlashUserCmd
  | eraseSector
  | erase32k
  | eraseBlock
  | read
  | readDone
  | write
  | fastErase
deriving DecidableEq, Repr

structure FlashCmd where
  userCmd : FlashUserCmd
  addr : Nat
  len : Nat
deriving DecidableEq, Repr

structure FlashAns where
  cmd : FlashCmd
  retStatus : Int
  data : List UInt8
  crc : UInt32
deriving DecidableEq, Repr

/-- `calc_crc32`; `crc32_table` is the table of `Crc32.entry`. -/
def calcCrc32 (crc : UInt32) (buf : List UInt8) : UInt32 := Crc32.crc crc buf

def flashBytes (flash : Nat → UInt8) (addr len : Nat) : List UInt8 := (List.range len).map fun i => flash (addr + i)

def serve (flash : Nat → UInt8) (c : FlashCmd) (retStatus : Int) : FlashAns :=
  let data := if c.userCmd = .read then flashBytes flash c.addr c.len else []
  { cmd := c, retStatus, data, crc := calcCrc32 0 data }

def flashIpcReadSize : Nat := 0x200

/-- A call of `bk_flash_read_bytes` for `bytes` bytes; `size` are left. -/
structure ReadCall where
  address : Nat
  bytes : Nat
  rdLen : Nat
  size : Nat
  tryCnt : Nat
  userBuf : Nat → UInt8

namespace ReadCall

def chunk (c : ReadCall) : Nat := if c.size > flashIpcReadSize then flashIpcReadSize else c.size

def chunkAddr (c : ReadCall) : Nat := (c.address + c.rdLen) % 2 ^ 32 % 2 ^ 24

def memcpy (c : ReadCall) (data : List UInt8) : ReadCall :=
  { c with userBuf := fun i =>
      if c.rdLen ≤ i ∧ i < c.rdLen + c.chunk then data.getD (i - c.rdLen) 0 else c.userBuf i }

def chunkBuf (c : ReadCall) : List UInt8 := (List.range c.chunk).map fun i => c.userBuf (c.rdLen + i)

def matchesHdr (c : ReadCall) (a : FlashAns) : Bool :=
  a.cmd.userCmd = .read && a.retStatus = 0 && a.cmd.len = c.chunk

def request (c : ReadCall) : FlashCmd := ⟨.read, c.chunkAddr, c.chunk⟩

end ReadCall

inductive ReadTask
  | idle
  | run (c : ReadCall)
  | ret (c : ReadCall) (e : FlashErr)

def ReadCall.done (c : ReadCall) : ReadTask :=
  if c.size > flashIpcReadSize then
    .run { c with rdLen := c.rdLen + flashIpcReadSize, size := c.size - flashIpcReadSize, tryCnt := 0 }
  else .ret c .ok

def ReadCall.failed (c : ReadCall) : ReadTask :=
  if c.tryCnt + 1 ≥ 2 then .ret c .fail else .run { c with tryCnt := c.tryCnt + 1 }

inductive ReadPc
  | discard
  | send
  | recv
  /-- `cmd_buff` is the answer. -/
  | sendDone (cmd : FlashCmd)
  | recvDone
deriving DecidableEq, Repr

/-- How `mb_ipc_send` ends. After a timeout the request may have reached the server all the same. -/
inductive FlashSend
  | ok
  | lost
  | timeout
deriving DecidableEq, Repr

/-- The tasks `T`, the socket and the server. `server` are the requests not answered yet, oldest first. -/
structure FlashSys (T : Type) where
  task : T → ReadTask := fun _ => .idle
  mutex : Option (T × ReadPc) := none
  inbox : Option FlashAns := none
  server : List FlashCmd := []

inductive FlashAct (T : Type)
  /-- `bk_flash_read_bytes` is called; `inited` is the result of `bk_flash_driver_init`. -/
  | call (t : T) (address size : UInt32) (userBuf : Nat → UInt8) (inited : Bool)
  | lock (t : T)
  /-- `mb_ipc_recv` without a buffer; it goes on as long as `rx_notify_sema` has posts. -/
  | discard (again : Bool)
  | send (r : FlashSend)
  /-- `mb_ipc_recv` finds a message; `ok` is false when its CRC-8 is wrong. -/
  | recv (ok : Bool)
  | recvTimeout
  | serve (retStatus : Int)

namespace FlashSys

section
variable {T : Type} (s : FlashSys T)

def outstanding : List FlashCmd := s.server ++ (s.inbox.map (·.cmd)).toList

end

variable {T : Type} [DecidableEq T] (flash : Nat → UInt8) (s : FlashSys T)

def setTask (t : T) (k : ReadTask) : FlashSys T := { s with task := Function.update s.task t k }

def leave (t : T) (k : ReadTask) : FlashSys T := { s.setTask t k with mutex := none }

def ipcSend (t : T) (c : ReadCall) (cmd : FlashCmd) (next : ReadPc) : FlashSend → FlashSys T
  | .ok => { s with server := s.server ++ [cmd], mutex := some (t, next) }
  | .lost => s.leave t c.failed
  | .timeout => { s.leave t c.failed with server := s.server ++ [cmd] }

/-- The checks of `flash_read_bytes` on an answer. The bytes are copied before the CRC is compared. -/
def readAnswer (t : T) (c : ReadCall) (a : FlashAns) : FlashSys T :=
  if c.matchesHdr a then
    let c' := c.memcpy a.data
    if a.crc = calcCrc32 0 c'.chunkBuf then { s.setTask t (.run c') with mutex := some (t, .sendDone a.cmd) }
    else s.leave t c'.failed
  else s.leave t c.failed

def readStep (t : T) (c : ReadCall) : ReadPc → FlashAct T → Option (FlashSys T)
  | .discard, .discard again =>
    some { s with inbox := none, mutex := some (t, if again then .discard else .send) }
  | .send, .send r => some (s.ipcSend t c c.request .recv r)
  | .recv, .recv ok =>
    s.inbox.map fun a =>
      let s' := { s with inbox := none }
      if ok then s'.readAnswer t c a else s'.leave t c.failed
  | .recv, .recvTimeout => if s.inbox.isNone then some (s.leave t c.failed) else none
  | .sendDone cmd, .send r => some (s.ipcSend t c { cmd with userCmd := .readDone } .recvDone r)
  | .recvDone, .recv _ => s.inbox.map fun _ => { s.leave t c.done with inbox := none }
  | .recvDone, .recvTimeout => if s.inbox.isNone then some (s.leave t c.done) else none
  | _, _ => none

def step : FlashAct T → Option (FlashSys T)
  | .call t address size userBuf inited =>
    match s.task t with
    | .run _ => none
    | _ =>
      let c : ReadCall := ⟨address.toNat, size.toNat, 0, size.toNat, 0, userBuf⟩
      some (s.setTask t (if inited then .run c else .ret c .fail))
  | .lock t =>
    match s.task t, s.mutex with
    | .run _, none => some { s with mutex := some (t, .discard) }
    | _, _ => none
  | .serve retStatus =>
    match s.inbox, s.server with
    | none, c :: cs => some { s with inbox := some (Bk7258.serve flash c retStatus), server := cs }
    | _, _ => none
  | l =>
    match s.mutex with
    | some (t, pc) =>
      match s.task t with
      | .run c => s.readStep t c pc l
      | _ => none
    | none => none

end FlashSys
end Bk7258
