import Bk7258.Lib.Crc
import Bk7258.MbIpc.Calls

/-!
# What `mb_ipc_recv_async` reads

The bytes of a command stay in the sender's memory until the receiver copies them, in as many calls as its buffers need;
`rx_read_offset` is where the next call goes on. The call that copies the last bytes sends the response, and a call
without a buffer sends it at once. If the route queue is full the command is taken as answered and there is no response.
-/

namespace Bk7258
open Lts

def IpcMem := BitVec 32 → BitVec 8

def IpcMem.read (mem : IpcMem) (addr : BitVec 32) (len : Nat) : List (BitVec 8) :=
  (List.range len).map fun i => mem (addr + BitVec.ofNat 32 i)

def crc8Table : List (BitVec 8) :=
  [0x00, 0x31, 0x62, 0x53, 0xc4, 0xf5, 0xa6, 0x97, 0xb9, 0x88, 0xdb, 0xea, 0x7d, 0x4c, 0x1f, 0x2e,
   0x43, 0x72, 0x21, 0x10, 0x87, 0xb6, 0xe5, 0xd4, 0xfa, 0xcb, 0x98, 0xa9, 0x3e, 0x0f, 0x5c, 0x6d,
   0x86, 0xb7, 0xe4, 0xd5, 0x42, 0x73, 0x20, 0x11, 0x3f, 0x0e, 0x5d, 0x6c, 0xfb, 0xca, 0x99, 0xa8,
   0xc5, 0xf4, 0xa7, 0x96, 0x01, 0x30, 0x63, 0x52, 0x7c, 0x4d, 0x1e, 0x2f, 0xb8, 0x89, 0xda, 0xeb,
   0x3d, 0x0c, 0x5f, 0x6e, 0xf9, 0xc8, 0x9b, 0xaa, 0x84, 0xb5, 0xe6, 0xd7, 0x40, 0x71, 0x22, 0x13,
   0x7e, 0x4f, 0x1c, 0x2d, 0xba, 0x8b, 0xd8, 0xe9, 0xc7, 0xf6, 0xa5, 0x94, 0x03, 0x32, 0x61, 0x50,
   0xbb, 0x8a, 0xd9, 0xe8, 0x7f, 0x4e, 0x1d, 0x2c, 0x02, 0x33, 0x60, 0x51, 0xc6, 0xf7, 0xa4, 0x95,
   0xf8, 0xc9, 0x9a, 0xab, 0x3c, 0x0d, 0x5e, 0x6f, 0x41, 0x70, 0x23, 0x12, 0x85, 0xb4, 0xe7, 0xd6,
   0x7a, 0x4b, 0x18, 0x29, 0xbe, 0x8f, 0xdc, 0xed, 0xc3, 0xf2, 0xa1, 0x90, 0x07, 0x36, 0x65, 0x54,
   0x39, 0x08, 0x5b, 0x6a, 0xfd, 0xcc, 0x9f, 0xae, 0x80, 0xb1, 0xe2, 0xd3, 0x44, 0x75, 0x26, 0x17,
   0xfc, 0xcd, 0x9e, 0xaf, 0x38, 0x09, 0x5a, 0x6b, 0x45, 0x74, 0x27, 0x16, 0x81, 0xb0, 0xe3, 0xd2,
   0xbf, 0x8e, 0xdd, 0xec, 0x7b, 0x4a, 0x19, 0x28, 0x06, 0x37, 0x64, 0x55, 0xc2, 0xf3, 0xa0, 0x91,
   0x47, 0x76, 0x25, 0x14, 0x83, 0xb2, 0xe1, 0xd0, 0xfe, 0xcf, 0x9c, 0xad, 0x3a, 0x0b, 0x58, 0x69,
   0x04, 0x35, 0x66, 0x57, 0xc0, 0xf1, 0xa2, 0x93, 0xbd, 0x8c, 0xdf, 0xee, 0x79, 0x48, 0x1b, 0x2a,
   0xc1, 0xf0, 0xa3, 0x92, 0x05, 0x34, 0x67, 0x56, 0x78, 0x49, 0x1a, 0x2b, 0xbc, 0x8d, 0xde, 0xef,
   0x82, 0xb3, 0xe0, 0xd1, 0x46, 0x77, 0x24, 0x15, 0x3b, 0x0a, 0x59, 0x68, 0xff, 0xce, 0x9d, 0xac]

def crc8Of (data : List (BitVec 8)) : BitVec 8 := data.foldl (fun crc b => crc8Table.getD (crc ^^^ b).toNat 0) 0

def calCrc8 (mem : IpcMem) (dataBuf : BitVec 32) (len : Nat) : BitVec 8 := crc8Of (mem.read dataBuf (len % 0x10000))

namespace MbIpcSocket
variable (a : MbIpcSocket) (mem : IpcMem)

def recvCrc8 : BitVec 8 := calCrc8 mem a.rxCmd.cmdDataBuff a.rxCmd.cmdDataLen

def recvData (buffLen : Nat) : RecvRet := a.mbIpcRecvAsync buffLen (a.recvCrc8 mem)

def recvChunk (buffLen : Nat) : List (BitVec 8) :=
  match (a.recvData mem buffLen).ret with
  | .ok readLen => mem.read (a.rxCmd.cmdDataBuff + BitVec.ofNat 32 a.rxReadOffset) readLen
  | .error _ => []

/-- `user_cmd` after `mb_ipc_recv_async`, with `INVALID_USER_CMD_ID` for none -/
def recvUserCmd : BitVec 8 :=
  if a.rxInProcess && a.rxCmd.cmd = .send && !a.rxCmd.rsp then a.rxCmd.userCmd else 0xFF

/-- `mb_ipc_send` up to the semaphore, with its buffer; `cmd_data_len` has 16 bits. -/
def sendData (userCmd : BitVec 8) (buff dataLen : BitVec 32) : MbIpcStatus × MbIpcSocket :=
  match a.sendStart userCmd (dataLen.toNat % 0x10000) (calCrc8 mem buff dataLen.toNat) with
  | (.txOk, a) => (.txOk, { a with txCmd.cmdDataBuff := buff })
  | r => r

end MbIpcSocket

/-- `mb_ipc_recv` waits for `rx_notify_sema`. `wantsCmd` says that `user_cmd` is not `NULL`, `semaNotify` is
`CTRL_RX_SEMA_NOTIFY`. -/
def recvWaits (semaNotify wantsCmd : Bool) (ret : Except MbIpcStatus Nat) (userCmd : BitVec 8) : Bool :=
  match ret with
  | .ok 0 => !(wantsCmd && userCmd ≠ 0xFF) && semaNotify
  | _ => false

/-! ## Memory -/

namespace IpcMem
variable {mem : IpcMem} {addr : BitVec 32}

@[simp] theorem length_read (len : Nat) : (mem.read addr len).length = len := by simp [read]

theorem read_drop_take (off len n : Nat) :
    ((mem.read addr len).drop off).take n = mem.read (addr + BitVec.ofNat 32 off) (min (len - off) n) := by
  apply List.ext_getElem
  · simp [Nat.min_comm]
  · intro i h1 h2
    simp only [read, List.getElem_take, List.getElem_drop, List.getElem_map, List.getElem_range]
    rw [BitVec.ofNat_add, BitVec.add_assoc]

end IpcMem

/-! ## The checksum -/

section
variable {a b c d : BitVec 8} {data : List (BitVec 8)}

theorem crc8Table_getD : ∀ b : BitVec 8, crc8Table.getD b.toNat 0 = (Crc.shift 0x31#8)^[8] b := by decide +kernel

theorem crc8Of_eq (data : List (BitVec 8)) : crc8Of data = Crc.crc 0x31#8 0#8 data := by
  have hbyte : ∀ b : BitVec 8, (Crc.msbFirst b).foldl (Crc.bit 0x31#8) 0#8 = (Crc.shift 0x31#8)^[8] b :=
    by decide +kernel
  have hfold : ∀ crc, data.foldl (fun crc b => crc8Table.getD (crc ^^^ b).toNat 0) crc = Crc.crc 0x31#8 crc data := by
    induction data with
    | nil => exact fun _ => rfl
    | cons b data ih =>
      intro crc
      rw [List.foldl_cons, ih, crc8Table_getD, Crc.crc_cons, Crc.foldl_msbFirst (hbyte b)]
  exact hfold 0

theorem crc8Table_injective (h : crc8Table.getD a.toNat 0 = crc8Table.getD b.toNat 0) : a = b := by
  have hzero : ∀ x : BitVec 8, (Crc.shift 0x31#8)^[8] x = 0#8 → x = 0#8 := by decide +kernel
  rw [crc8Table_getD, crc8Table_getD] at h
  refine BitVec.xor_eq_zero_iff.1 (hzero _ ?_)
  rw [Crc.iterate_shift_xor, h, BitVec.xor_self]

theorem crc8_foldl_injective : ∀ (data : List (BitVec 8)) {c d : BitVec 8},
    data.foldl (fun crc b => crc8Table.getD (crc ^^^ b).toNat 0) c =
      data.foldl (fun crc b => crc8Table.getD (crc ^^^ b).toNat 0) d → c = d
  | [], _, _, h => h
  | b :: data, _, _, h => (BitVec.xor_left_inj b).1 (crc8Table_injective (crc8_foldl_injective data h))

theorem crc8Of_set_ne {i : Nat} (hi : i < data.length) (hab : a ≠ b) :
    crc8Of (data.set i a) ≠ crc8Of (data.set i b) := by
  intro h
  unfold crc8Of at h
  rw [List.set_eq_take_append_cons_drop, List.set_eq_take_append_cons_drop, if_pos hi, if_pos hi, List.foldl_append,
    List.foldl_append] at h
  exact hab ((BitVec.xor_right_inj _).1 (crc8Table_injective (crc8_foldl_injective _ h)))

theorem IpcMem.read_eq_set {mem mem' : IpcMem} {buf buf' : BitVec 32} {len i : Nat}
    (h : ∀ j, j < len ∧ mem (buf + BitVec.ofNat 32 j) ≠ mem' (buf' + BitVec.ofNat 32 j) → j = i) :
    mem'.read buf' len = (mem.read buf len).set i (mem' (buf' + BitVec.ofNat 32 i)) := by
  apply List.ext_getElem
  · simp
  · intro j hj _
    simp only [read, List.getElem_set, List.getElem_map, List.getElem_range]
    split
    · rename_i hij
      rw [hij]
    · rename_i hij
      by_contra hne
      rw [length_read] at hj
      exact hij (h j ⟨hj, Ne.symm hne⟩).symm

end

theorem cal_crc8_bitwise {len : Nat} (hlen : len < 65536) (mem mem' : IpcMem) (buf buf' : BitVec 32) :
    calCrc8 mem buf len = Crc.crc 0x31#8 0#8 (mem.read buf len) ∧
    ((∃! i, i < len ∧ mem (buf + BitVec.ofNat 32 i) ≠ mem' (buf' + BitVec.ofNat 32 i)) →
      calCrc8 mem buf len ≠ calCrc8 mem' buf' len) := by
  have hread : ∀ (m : IpcMem) b, calCrc8 m b len = crc8Of (m.read b len) := by
    intro m b
    rw [calCrc8, Nat.mod_eq_of_lt hlen]
  rw [hread, hread]
  refine ⟨crc8Of_eq _, ?_⟩
  rintro ⟨i, ⟨hi, hne⟩, huniq⟩
  have hself : mem.read buf len = (mem.read buf len).set i (mem (buf + BitVec.ofNat 32 i)) :=
    IpcMem.read_eq_set fun _ h => absurd rfl h.2
  have hlt : i < (mem.read buf len).length := by rwa [IpcMem.length_read]
  have hset := crc8Of_set_ne hlt hne
  rwa [← hself, ← IpcMem.read_eq_set huniq] at hset

theorem cal_crc8_bitwise_two : calCrc8 (fun a => if a = 1 then 2 else 1) 0 2 = Crc.crc 0x31#8 0#8 [1, 2] ∧
    calCrc8 (fun a => if a = 1 then 2 else 1) 0 2 ≠ calCrc8 (fun a => if a = 1 then 3 else 1) 0 2 := by
  obtain ⟨hcrc, hne⟩ := cal_crc8_bitwise (show 2 < 65536 by decide) (fun a => if a = 1 then 2 else 1)
    (fun a => if a = 1 then 3 else 1) 0 0
  have huniq : ∀ j < 2, ((if 0 + BitVec.ofNat 32 j = 1 then 2 else 1 : BitVec 8) ≠
      if 0 + BitVec.ofNat 32 j = 1 then 3 else 1) → j = 1 := by decide
  exact ⟨hcrc, hne ⟨1, by decide, fun j hj => huniq j hj.1 hj.2⟩⟩

/-! ## One call -/

namespace MbIpcSocket
variable {a : MbIpcSocket} {mem : IpcMem} {payload : List (BitVec 8)}

structure Reading (mem : IpcMem) (payload : List (BitVec 8)) (a : MbIpcSocket) : Prop where
  socket : a.allocated = true ∧ a.connected = true
  rx : a.rxInProcess = true ∧ a.rxCmd.rsp = false ∧ a.rxCmd.cmd = .send
  len : a.rxCmd.cmdDataLen = payload.length ∧ payload.length < 0x10000
  data : mem.read a.rxCmd.cmdDataBuff payload.length = payload
  crc : a.rxCmd.cmdDataCrc8 = crc8Of payload
  status : a.rxCmd.apiImplStatus = .statusOk

theorem Reading.recvCrc8 (h : a.Reading mem payload) : a.recvCrc8 mem = a.rxCmd.cmdDataCrc8 := by
  rw [MbIpcSocket.recvCrc8, calCrc8, h.len.1, Nat.mod_eq_of_lt h.len.2, h.data, h.crc]

theorem Reading.recvData (h : a.Reading mem payload) (n : Nat) :
    a.recvData mem n = ⟨.ok ((payload.drop a.rxReadOffset).take n).length,
      { a with rxReadOffset := a.rxReadOffset + ((payload.drop a.rxReadOffset).take n).length },
      n = 0 || payload.length ≤ a.rxReadOffset + n⟩ := by
  obtain ⟨halloc, hconn⟩ := h.socket
  obtain ⟨hrx, hrsp, hcmd⟩ := h.rx
  unfold MbIpcSocket.recvData mbIpcRecvAsync
  rw [if_neg (by simp [halloc]), if_neg (by simp [hconn]), if_neg (by simp [hrx]), if_neg (by simp [hrsp]),
    if_neg (by simp [hcmd]), h.len.1, List.length_take, List.length_drop]
  by_cases hn : n = 0
  · simp [hn]
  by_cases hoff : payload.length ≤ a.rxReadOffset
  · have hzero : min n (payload.length - a.rxReadOffset) = 0 := by omega
    have hall : payload.length ≤ a.rxReadOffset + n := by omega
    rw [if_neg hn, if_pos hoff, hzero]
    simp [hall]
  · have hlast : payload.length ≤ a.rxReadOffset + min n (payload.length - a.rxReadOffset) ↔
        payload.length ≤ a.rxReadOffset + n := by omega
    rw [if_neg hn, if_neg hoff, Nat.min_comm]
    simp [h.recvCrc8, h.len.1, hn, hlast]

theorem Reading.recvChunk (h : a.Reading mem payload) (n : Nat) :
    a.recvChunk mem n = (payload.drop a.rxReadOffset).take n := by
  rw [MbIpcSocket.recvChunk, h.recvData]
  dsimp only
  rw [List.length_take, List.length_drop, Nat.min_comm, ← IpcMem.read_drop_take, h.data]

def Answered (a : MbIpcSocket) : Prop :=
  a.allocated = true ∧ a.connected = true ∧ (a.rxInProcess = true → a.rxCmd.rsp = true)

theorem Answered.recvData (h : a.Answered) (n : Nat) : a.recvData mem n = ⟨.ok 0, a, false⟩ := by
  obtain ⟨halloc, hconn, hrsp⟩ := h
  cases hrx : a.rxInProcess with
  | false => simp [MbIpcSocket.recvData, mbIpcRecvAsync, halloc, hconn, hrx]
  | true => simp [MbIpcSocket.recvData, mbIpcRecvAsync, halloc, hconn, hrx, hrsp hrx]

theorem Answered.recvChunk (h : a.Answered) (n : Nat) : a.recvChunk mem n = [] := by
  rw [MbIpcSocket.recvChunk, h.recvData]
  rfl

end MbIpcSocket

/-! ## The response -/

namespace IpcCpu
variable {s : IpcCpu} {x : SockId}

/-- What `ipc_socket_tx_rsp` sends goes out: to a socket of this CPU, or into the queue of the route. -/
def rspLeaves (s : IpcCpu) (x : SockId) : Bool :=
  (s.sock x).dstCpu = (s.sock x).srcCpu ||
    routerSearchRoute (s.sock x).dstCpu && (s.route.enqueue (s.sock x).rspCmd).1 = .statusOk

theorem sock_rxRspHandler (s : IpcCpu) (y : Option SockId) (rsp : MbIpcCmd) (x : SockId) : ∃ st tx,
    (s.rxRspHandler y rsp).2.sock x = { s.sock x with txStatus := st, txInProcess := tx } := by
  cases y with
  | none => exact ⟨_, _, rfl⟩
  | some y =>
    have hset : ∃ st tx, (s.setSock y ((s.sock y).rxRspHandler rsp).2.1).sock x =
        { s.sock x with txStatus := st, txInProcess := tx } := by
      by_cases hxy : x = y
      · subst hxy
        rw [setSock_self]
        rcases (s.sock x).rxRspHandler_cases rsp with ⟨st, he⟩ | ⟨st, he, -⟩ <;> rw [he]
        · exact ⟨_, _, rfl⟩
        · exact ⟨_, _, rfl⟩
      · rw [setSock_of_ne hxy]
        exact ⟨_, _, rfl⟩
    simp only [rxRspHandler]
    split
    · exact hset
    · exact hset

theorem sock_txCmplHandler (s : IpcCpu) (x : SockId) (ack : MbIpcCmd) :
    (s.txCmplHandler x ack).sock x = ((s.sock x).txCmplHandler ack).1 := by
  simp only [txCmplHandler]
  split
  · exact setSock_self
  · exact setSock_self

theorem answered_txRsp (hsock : (s.sock x).allocated ∧ (s.sock x).connected) (hleaves : s.rspLeaves x) :
    ((s.txRsp x).sock x).Answered ∧ ((s.txRsp x).sock x).rxReadOffset = (s.sock x).rxReadOffset := by
  simp only [txRsp]
  split
  · -- the local path clears `STATE_RX_IN_PROCESS` itself
    obtain ⟨st, tx, he⟩ := sock_rxRspHandler _ _ _ x
    show ((rxRspHandler _ _ _).2.sock x).Answered ∧ ((rxRspHandler _ _ _).2.sock x).rxReadOffset = _
    rw [he, sock_txCmplHandler, setSock_self]
    rcases MbIpcSocket.txCmplHandler_cases { s.sock x with rxCmd := (s.sock x).rspCmd } (s.sock x).rspCmd with
      ⟨cpu, port, hc, -⟩ | hc | ⟨st, hc, -⟩ <;> rw [hc]
    · exact ⟨⟨hsock.1, hsock.2, fun hrx => by cases hrx⟩, rfl⟩
    · exact ⟨⟨hsock.1, hsock.2, fun _ => rfl⟩, rfl⟩
    · exact ⟨⟨hsock.1, hsock.2, fun _ => rfl⟩, rfl⟩
  · rename_i hcpu
    simp only [rspLeaves, decide_eq_false hcpu, Bool.false_or, Bool.and_eq_true, decide_eq_true_eq] at hleaves
    rw [hleaves.1, if_neg (by decide)]
    show ((s.setSock x ((s.sock x).txRsp _)).sock x).Answered ∧ ((s.setSock x _).sock x).rxReadOffset = _
    rw [setSock_self]
    exact ⟨⟨hsock.1, hsock.2, fun _ => rfl⟩, rfl⟩

end IpcCpu

/-! ## The calls for one command -/

/-- `calls` are the buffer lengths of the calls, `chunks` what they have returned, `rsps` the responses that went
out. -/
structure RecvSys where
  cpu : IpcCpu
  mem : IpcMem
  calls : List Nat := []
  chunks : List (List (BitVec 8)) := []
  rsps : List MbIpcCmd := []

inductive RecvAct
  | recv (buffLen : Nat)
  | other (cpu : IpcCpu) (mem : IpcMem)

namespace RecvSys
variable (x : SockId)

def step (s : RecvSys) : RecvAct → Option RecvSys
  | .recv buffLen =>
    let a := s.cpu.sock x
    let r := a.recvData s.mem buffLen
    some { s with
      cpu := s.cpu.recvAsync x buffLen (a.recvCrc8 s.mem)
      calls := s.calls ++ [buffLen]
      chunks := s.chunks ++ [a.recvChunk s.mem buffLen]
      rsps := if r.rsp && (s.cpu.setSock x r.socket).rspLeaves x then s.rsps ++ [r.socket.rspCmd] else s.rsps }
  | .other cpu mem => some { s with cpu := cpu, mem := mem }

def Stays (s : RecvSys) (cpu : IpcCpu) (mem : IpcMem) : Prop :=
  let a := s.cpu.sock x
  let b := cpu.sock x
  b.allocated = a.allocated ∧ b.connected = a.connected ∧ b.rxCmd = a.rxCmd ∧ b.rxReadOffset = a.rxReadOffset ∧
    (b.rxInProcess = true → a.rxInProcess = true) ∧
    (a.rxCmd.rsp = false → b.rxInProcess = a.rxInProcess ∧
      mem.read a.rxCmd.cmdDataBuff a.rxCmd.cmdDataLen = s.mem.read a.rxCmd.cmdDataBuff a.rxCmd.cmdDataLen)

/-- A response that is due can go out: its peer is on this CPU, or the queue of the route has an entry for it. -/
def RecvOk (s : RecvSys) : RecvAct → Prop
  | .recv buffLen =>
    ((s.cpu.sock x).recvData s.mem buffLen).rsp = true →
      (s.cpu.setSock x ((s.cpu.sock x).recvData s.mem buffLen).socket).rspLeaves x = true
  | .other cpu mem => s.Stays x cpu mem

end RecvSys

def asked : List Nat → Nat
  | [] => 0
  | 0 :: _ => 0
  | n :: ns => n + asked ns

def AllAsked (len : Nat) (calls : List Nat) : Prop := 0 ∈ calls ∨ calls ≠ [] ∧ len ≤ asked calls

instance (len : Nat) (calls : List Nat) : Decidable (AllAsked len calls) := inferInstanceAs (Decidable (_ ∨ _))

theorem asked_snoc (calls : List Nat) (n : Nat) :
    asked (calls ++ [n]) = if 0 ∈ calls then asked calls else asked calls + n := by
  induction calls with
  | nil => cases n <;> simp [asked]
  | cons k calls ih =>
    cases k with
    | zero => simp [asked]
    | succ k =>
      simp only [List.cons_append, asked, ih, List.mem_cons, Nat.right_eq_add, Nat.succ_ne_zero, false_or]
      split
      · rfl
      · omega

namespace RecvSys
variable {x : SockId} {s s' : RecvSys} {payload : List (BitVec 8)} {tag : BitVec 8}

structure Open (x : SockId) (payload : List (BitVec 8)) (tag : BitVec 8) (s : RecvSys) : Prop where
  reading : (s.cpu.sock x).Reading s.mem payload
  tag : (s.cpu.sock x).rxCmd.tag = tag
  calls : ¬AllAsked payload.length s.calls
  offset : (s.cpu.sock x).rxReadOffset = asked s.calls
  rsps : s.rsps = []

structure Done (x : SockId) (payload : List (BitVec 8)) (tag : BitVec 8) (s : RecvSys) : Prop where
  answered : (s.cpu.sock x).Answered
  calls : AllAsked payload.length s.calls
  offset : (s.cpu.sock x).rxReadOffset ≤ payload.length
  rsps : ∃ rsp, s.rsps = [rsp] ∧ rsp.rsp = true ∧ rsp.cmd = .send ∧ rsp.tag = tag ∧ rsp.apiImplStatus = .statusOk

structure Inv (x : SockId) (payload : List (BitVec 8)) (tag : BitVec 8) (s : RecvSys) : Prop where
  chunks : s.chunks.flatten = payload.take (asked s.calls)
  state : s.Open x payload tag ∨ s.Done x payload tag

theorem Open.offset_le (h : s.Open x payload tag) : asked s.calls ≤ payload.length := by
  by_cases hnil : s.calls = []
  · rw [hnil]
    exact Nat.zero_le _
  · have hall := h.calls
    simp only [AllAsked, not_or, not_and] at hall
    exact Nat.le_of_lt (Nat.lt_of_not_le (hall.2 hnil))

theorem Open.asked_snoc (h : s.Open x payload tag) (n : Nat) : asked (s.calls ++ [n]) = asked s.calls + n := by
  rw [Bk7258.asked_snoc, if_neg fun hz => h.calls (.inl hz)]

theorem Open.allAsked_snoc (h : s.Open x payload tag) (n : Nat) :
    AllAsked payload.length (s.calls ++ [n]) ↔ n = 0 ∨ payload.length ≤ asked s.calls + n := by
  have hz : 0 ∉ s.calls := fun hz => h.calls (.inl hz)
  rw [AllAsked, h.asked_snoc, List.mem_append, List.mem_singleton, or_iff_right hz, @eq_comm Nat 0 n,
    and_iff_right (List.append_ne_nil_of_right_ne_nil _ (List.cons_ne_nil n []))]

variable {n : Nat}

theorem recv_rsp (hok : s.RecvOk x (.recv n)) (hrsp : ((s.cpu.sock x).recvData s.mem n).rsp = true)
    (hs : s.step x (.recv n) = some s') : s'.cpu = (s.cpu.setSock x ((s.cpu.sock x).recvData s.mem n).socket).txRsp x ∧
      s'.rsps = s.rsps ++ [((s.cpu.sock x).recvData s.mem n).socket.rspCmd] := by
  cases hs
  dsimp only
  rw [hrsp, hok hrsp, IpcCpu.recvAsync, ← MbIpcSocket.recvData, hrsp]
  exact ⟨rfl, rfl⟩

theorem recv_quiet (hrsp : ((s.cpu.sock x).recvData s.mem n).rsp = false) (hs : s.step x (.recv n) = some s') :
    s'.cpu = s.cpu.setSock x ((s.cpu.sock x).recvData s.mem n).socket ∧ s'.rsps = s.rsps := by
  cases hs
  dsimp only
  rw [hrsp, IpcCpu.recvAsync, ← MbIpcSocket.recvData, hrsp]
  exact ⟨rfl, rfl⟩

theorem recv_calls (hs : s.step x (.recv n) = some s') : s'.mem = s.mem ∧ s'.calls = s.calls ++ [n] ∧
    s'.chunks = s.chunks ++ [(s.cpu.sock x).recvChunk s.mem n] := by
  cases hs
  exact ⟨rfl, rfl, rfl⟩

theorem Open.recv (h : s.Open x payload tag) (hok : s.RecvOk x (.recv n)) (hs : s.step x (.recv n) = some s') :
    s'.Open x payload tag ∨ s'.Done x payload tag := by
  have hle := h.offset_le
  have hread := h.reading
  have hdata := hread.recvData n
  rw [List.length_take, List.length_drop, h.offset] at hdata
  obtain ⟨hmem, hcalls, -⟩ := recv_calls hs
  by_cases hlast : n = 0 ∨ payload.length ≤ asked s.calls + n
  · have hrsp : ((s.cpu.sock x).recvData s.mem n).rsp = true := by
      rw [hdata]
      simpa using hlast
    obtain ⟨hcpu, hrsps⟩ := recv_rsp hok hrsp hs
    have hans := IpcCpu.answered_txRsp (by rw [IpcCpu.setSock_self, hdata]; exact hread.socket) (hok hrsp)
    rw [← hcpu, IpcCpu.setSock_self] at hans
    refine .inr ⟨hans.1, ?_, ?_, ((s.cpu.sock x).recvData s.mem n).socket.rspCmd, ?_, rfl, ?_, ?_, ?_⟩
    · rw [hcalls]
      exact (h.allAsked_snoc n).2 hlast
    · rw [hans.2, hdata]
      dsimp only
      omega
    · rw [hrsps, h.rsps]
      rfl
    · rw [hdata]
      exact hread.rx.2.2
    · rw [hdata]
      exact h.tag
    · rw [hdata]
      exact hread.status
  · have hrsp : ((s.cpu.sock x).recvData s.mem n).rsp = false := by
      rw [hdata]
      simpa using hlast
    obtain ⟨hcpu, hrsps⟩ := recv_quiet hrsp hs
    have hsock : s'.cpu.sock x = ((s.cpu.sock x).recvData s.mem n).socket := by rw [hcpu, IpcCpu.setSock_self]
    rw [hdata] at hsock
    refine .inl ⟨?_, by rw [hsock]; exact h.tag, ?_, ?_, by rw [hrsps, h.rsps]⟩
    · rw [hsock, hmem]
      exact ⟨hread.socket, hread.rx, hread.len, hread.data, hread.crc, hread.status⟩
    · rw [hcalls]
      exact fun hall => hlast ((h.allAsked_snoc n).1 hall)
    · rw [hsock, hcalls, h.asked_snoc]
      dsimp only
      omega

theorem Done.recv (h : s.Done x payload tag) (hs : s.step x (.recv n) = some s') : s'.Done x payload tag := by
  have hdata : (s.cpu.sock x).recvData s.mem n = ⟨.ok 0, s.cpu.sock x, false⟩ := h.answered.recvData n
  obtain ⟨-, hcalls, -⟩ := recv_calls hs
  obtain ⟨hcpu, hrsps⟩ := recv_quiet (by rw [hdata]) hs
  have hsock : s'.cpu.sock x = s.cpu.sock x := by rw [hcpu, IpcCpu.setSock_self, hdata]
  refine ⟨by rw [hsock]; exact h.answered, ?_, by rw [hsock]; exact h.offset, by rw [hrsps]; exact h.rsps⟩
  rw [hcalls]
  by_cases hz : 0 ∈ s.calls
  · exact .inl (List.mem_append_left _ hz)
  · have hle := (h.calls.resolve_left hz).2
    refine .inr ⟨List.append_ne_nil_of_right_ne_nil _ (List.cons_ne_nil n []), ?_⟩
    rw [asked_snoc, if_neg hz]
    omega

theorem Inv.recv (h : s.Inv x payload tag) (hok : s.RecvOk x (.recv n)) (hs : s.step x (.recv n) = some s') :
    s'.Inv x payload tag := by
  have hcalls := (recv_calls hs).2
  rcases h.state with hopen | hdone
  · refine ⟨?_, hopen.recv hok hs⟩
    rw [hcalls.1, hcalls.2, hopen.asked_snoc, List.flatten_append, h.chunks, hopen.reading.recvChunk, hopen.offset,
      List.take_add]
    simp
  · refine ⟨?_, .inr (hdone.recv hs)⟩
    rw [hcalls.1, hcalls.2, List.flatten_append, hdone.answered.recvChunk, h.chunks, asked_snoc]
    split
    · simp
    · rename_i hz
      have hle := (hdone.calls.resolve_left hz).2
      rw [List.take_of_length_le hle, List.take_of_length_le (by omega)]
      simp

variable {cpu : IpcCpu}

theorem Inv.other (h : s.Inv x payload tag) {mem : IpcMem} (hstays : s.Stays x cpu mem) :
    Inv x payload tag { s with cpu := cpu, mem := mem } := by
  obtain ⟨halloc, hconn, hcmd, hoff, hrx, hopen⟩ := hstays
  refine ⟨h.chunks, ?_⟩
  rcases h.state with h | h
  · obtain ⟨hrx, hmem⟩ := hopen h.reading.rx.2.1
    rw [h.reading.len.1, h.reading.data] at hmem
    refine .inl ⟨⟨?_, ?_, ?_, ?_, ?_, ?_⟩, ?_, h.calls, hoff.trans h.offset, h.rsps⟩
    · rw [halloc, hconn]
      exact h.reading.socket
    · rw [hrx, hcmd]
      exact h.reading.rx
    · rw [hcmd]
      exact h.reading.len
    · rw [hcmd]
      exact hmem
    · rw [hcmd]
      exact h.reading.crc
    · rw [hcmd]
      exact h.reading.status
    · rw [hcmd]
      exact h.tag
  · refine .inr ⟨⟨halloc.trans h.answered.1, hconn.trans h.answered.2.1, fun hb => ?_⟩, h.calls, ?_, h.rsps⟩
    · rw [hcmd]
      exact h.answered.2.2 (hrx hb)
    · rw [hoff]
      exact h.offset

theorem Inv.step {a : RecvAct} (h : s.Inv x payload tag) (hok : s.RecvOk x a) (hs : s.step x a = some s') :
    s'.Inv x payload tag := by
  cases a with
  | recv n => exact h.recv hok hs
  | other cpu mem =>
    cases hs
    exact h.other hok

theorem Inv.rxCmdOn {c : MbIpcCmd} {mem : IpcMem}
    (hsock : (cpu.sock x).allocated = true ∧ (cpu.sock x).connected = true ∧ (cpu.sock x).rxInProcess = false ∧
      (cpu.sock x).rxTag ≠ c.tag) (hcmd : c.cmd = .send ∧ c.rsp = false)
    (hlen : c.cmdDataLen = payload.length ∧ payload.length ≤ 65535)
    (hdata : mem.read c.cmdDataBuff payload.length = payload) (hcrc : c.cmdDataCrc8 = crc8Of payload) :
    Inv x payload c.tag { cpu := (cpu.rxCmdOn x c).2, mem := mem } := by
  obtain ⟨halloc, hconn, hrx, htag⟩ := hsock
  have hnew : ((cpu.rxCmdOn x c).2.sock x) = { cpu.sock x with
      rxCmd := { c with apiImplStatus := .statusOk }, rxReadOffset := 0, rxInProcess := true, rxTag := c.tag } := by
    simp only [IpcCpu.rxCmdOn, MbIpcSocket.rxCmdHandler_new hrx halloc hconn hcmd.1 htag, Bool.false_eq_true, if_false]
    exact IpcCpu.setSock_self
  refine ⟨rfl, .inl ⟨?_, ?_, ?_, ?_, rfl⟩⟩
  · dsimp only
    rw [hnew]
    exact ⟨⟨halloc, hconn⟩, ⟨rfl, hcmd.2, hcmd.1⟩, ⟨hlen.1, by omega⟩, hdata, hcrc, rfl⟩
  · dsimp only
    rw [hnew]
  · simp [AllAsked]
  · dsimp only
    rw [hnew]
    rfl

instance (s : RecvSys) : ∀ a, Decidable (s.RecvOk x a)
  | .recv _ => inferInstanceAs (Decidable (_ → _))
  | .other _ _ => inferInstanceAs (Decidable (_ ∧ _))

end RecvSys

/-- As long as a response that is due can go out: the calls return the payload from its start, as much as they have room
for, and there is one response, when a call had no buffer or all bytes were read. -/
theorem recv_chunks_payload (cpu : IpcCpu) (x : SockId) (c : MbIpcCmd) (mem : IpcMem) (payload : List (BitVec 8))
    (hsock : (cpu.sock x).allocated = true ∧ (cpu.sock x).connected = true ∧ (cpu.sock x).rxInProcess = false ∧
      (cpu.sock x).rxTag ≠ c.tag) (hcmd : c.cmd = .send ∧ c.rsp = false)
    (hlen : c.cmdDataLen = payload.length ∧ payload.length ≤ 65535)
    (hdata : mem.read c.cmdDataBuff payload.length = payload) (hcrc : c.cmdDataCrc8 = crc8Of payload) {s : RecvSys}
    (hr : Run (RecvSys.step x) (RecvSys.RecvOk x) { cpu := (cpu.rxCmdOn x c).2, mem := mem } s) :
    s.chunks.flatten = payload.take (asked s.calls) ∧ (s.cpu.sock x).rxReadOffset ≤ payload.length ∧
    (¬AllAsked payload.length s.calls → s.rsps = []) ∧
    (AllAsked payload.length s.calls → ∃ rsp, s.rsps = [rsp] ∧ rsp.rsp = true ∧ rsp.cmd = .send ∧ rsp.tag = c.tag ∧
      rsp.apiImplStatus = .statusOk) ∧
    (0 ∉ s.calls → s.rsps ≠ [] → s.chunks.flatten = payload) := by
  have hinv : s.Inv x payload c.tag :=
    hr.invariant (I := RecvSys.Inv x payload c.tag)
      (.rxCmdOn hsock hcmd hlen hdata hcrc) fun _ _ _ _ h hok hs => h.step hok hs
  refine ⟨hinv.chunks, ?_⟩
  rcases hinv.state with h | h
  · refine ⟨?_, fun _ => h.rsps, fun hall => absurd hall h.calls, fun _ hne => absurd h.rsps hne⟩
    rw [h.offset]
    exact h.offset_le
  · refine ⟨h.offset, fun hall => absurd h.calls hall, fun _ => h.rsps, fun hz _ => ?_⟩
    rw [hinv.chunks, List.take_of_length_le (h.calls.resolve_left hz).2]

def servedCpu (x : SockId) : IpcCpu where
  sock := Function.update SockId.initSocket x
    { allocated := true, connected := true, dstPort := 16, srcPort := x.port.num, srcCpu := 1 }
  route := .init

def countingMem : IpcMem := fun addr => (addr - 0xFF).truncate 8

def threeBytes : MbIpcCmd :=
  { cmd := .send, dstPort := 1, dstCpu := 1, srcPort := 16, tag := 1, cmdDataLen := 3, cmdDataCrc8 := 0xCC,
    cmdDataBuff := 0x100 }

theorem recv_chunks_payload_three : ∃ s : RecvSys,
    Run (RecvSys.step (.server 0 0)) (RecvSys.RecvOk (.server 0 0))
      { cpu := ((servedCpu (.server 0 0)).rxCmdOn (.server 0 0) threeBytes).2, mem := countingMem } s ∧
    s.calls = [2, 5, 4] ∧ s.chunks.flatten = [1, 2, 3] ∧ ∃ rsp, s.rsps = [rsp] ∧ rsp.tag = 1 := by
  refine Run.of_exec_and [.recv 2, .recv 5, .recv 4] (by decide +kernel) fun s hr hcalls => ?_
  obtain ⟨hchunks, -, -, hrsp, -⟩ := recv_chunks_payload (servedCpu (.server 0 0))
    (.server 0 0) threeBytes countingMem [1, 2, 3]
    (by decide) (by decide) (by decide) (by decide) (by decide +kernel) hr
  obtain ⟨rsp, hrsps, -, -, htag, -⟩ := hrsp (by rw [hcalls]; decide)
  refine ⟨?_, rsp, hrsps, htag⟩
  rw [hchunks, hcalls]
  rfl

/-- 24 commands that timed out fill the queue of the route: a command is read, and there is no response to it. -/
theorem recv_rsp_lost : ∃ s : MbIpcSys (Fin 1), Run MbIpcSys.step (fun _ _ => True) {} s ∧
    (s.cpu.sock (.server 0 0)).connected = true ∧ (s.cpu.sock (.server 0 0)).rxInProcess = false ∧
    (s.cpu.sock (.server 0 0)).rxTag ≠ threeBytes.tag ∧
    ∃ r : RecvSys, Run (RecvSys.step (.server 0 0)) (fun _ _ => True)
        { cpu := (s.cpu.rxCmdOn (.server 0 0) threeBytes).2, mem := countingMem } r ∧
      r.calls = [3, 3] ∧ r.chunks.flatten = [1, 2, 3] ∧ AllAsked 3 r.calls ∧ r.rsps = [] ∧
      (r.cpu.sock (.server 0 0)).rxInProcess = false := by
  obtain ⟨s, hr, hconn, hrx, htag, hexec⟩ : ∃ s : MbIpcSys (Fin 1), Run MbIpcSys.step (fun _ _ => True) {} s ∧
      ((s.cpu.sock (.server 0 0)).connected = true ∧ (s.cpu.sock (.server 0 0)).rxInProcess = false ∧
        (s.cpu.sock (.server 0 0)).rxTag ≠ threeBytes.tag ∧
        (exec (RecvSys.step (.server 0 0)) (fun _ _ => True)
            { cpu := (s.cpu.rxCmdOn (.server 0 0) threeBytes).2, mem := countingMem } [.recv 3, .recv 3]).any
          (fun r => decide (r.calls = [3, 3] ∧ r.chunks.flatten = [1, 2, 3] ∧ AllAsked 3 r.calls ∧ r.rsps = [] ∧
            (r.cpu.sock (.server 0 0)).rxInProcess = false)) = true) :=
    Run.of_exec ([.socket (.client 0), .socket (.server 0), .rx (fromClient .connect 16),
      .txCmpl (ackOfRsp (fromClient .connect 16))] ++
      (List.replicate 24 [.connect 0 (.client 0) 0 1, .next 0, .next 0, .timeout 0, .next 0]).flatten)
        (by decide +kernel)
  exact ⟨s, hr, hconn, hrx, htag, Run.of_exec _ hexec⟩

end Bk7258
