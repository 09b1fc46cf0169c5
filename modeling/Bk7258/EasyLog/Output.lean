import Mathlib.Data.List.Range

/-!
# `easy_log_output` over the mailbox UART

The text is handed to `bk_mb_uart_write` in pieces, as many bytes as `bk_mb_uart_write_ready` offers. A call that takes
nothing is tried again, up to 10000 times in a row: each iteration sends a byte or uses up a retry, and `sendLeft`
falls.
-/

namespace Bk7258

inductive EasyLogLink
  | uart
  | mbUart
deriving DecidableEq

structure EasyLog where
  inited : Bool
  link : EasyLogLink

/-- What the driver answers in the `k`-th iteration: the room it reports, and how many of the bytes given it accepts -/
structure MbUartPeer where
  writeReady : Nat → BitVec 16
  write : Nat → Nat → Nat
  write_le : ∀ k chunk, write k chunk ≤ chunk

def firstBytes (buffer : Nat → BitVec 8) (n : Nat) : List (BitVec 8) := (List.range n).map buffer

/-- The loop of `easy_log_output`; it ends with `sent_total` and the bytes that were accepted, in order. -/
def sendLoop (p : MbUartPeer) (buffer : Nat → BitVec 8) (length : Nat) :
    Nat → Nat → Nat → Nat → List (BitVec 8) → Option (Nat × List (BitVec 8))
  | 0, _, _, _, _ => none
  | fuel + 1, k, sentTotal, retry, out =>
    if sentTotal < length then
      let ready := (p.writeReady k).toNat
      if ready = 0 then
        -- the TX FIFO is full
        if retry + 1 > 10000 then some (sentTotal, out) else
          sendLoop p buffer length fuel (k + 1) sentTotal (retry + 1) out
      else
        let rest := (length - sentTotal) % 65536
        let chunk := if rest > ready then ready else rest
        let sent := p.write k chunk
        if sent = 0 then
          if retry + 1 > 10000 then some (sentTotal, out) else
            sendLoop p buffer length fuel (k + 1) sentTotal (retry + 1) out
        else
          sendLoop p buffer length fuel (k + 1) (sentTotal + sent) 0
            (out ++ (List.range sent).map fun j => buffer (sentTotal + j))
    else some (sentTotal, out)

/-- `easy_log_output`: the result and what `bk_mb_uart_write` has accepted; `none` when `fuel` is not enough. `uartOk`
is the result of `bk_uart_write_bytes`. -/
def easyLogOutput (g : EasyLog) (p : MbUartPeer) (uartOk : Bool) (fuel : Nat) (buffer : Option (Nat → BitVec 8))
    (length : Nat) : Option (Int × List (BitVec 8)) :=
  if g.inited = false then some (-1, [])
  else
    match buffer with
    | none => some (0, [])
    | some buffer =>
      if length = 0 then some (0, [])
      else
        let length := if length > 0xFFFF then 0xFFFF else length
        match g.link with
        | .uart => some (if uartOk then 0 else -1, [])
        | .mbUart =>
          (sendLoop p buffer length fuel 0 0 0 []).map fun r => (if r.1 = length then 0 else -1, r.2)

section
variable {p : MbUartPeer} {buffer : Nat → BitVec 8} {length fuel k sentTotal retry n m : Nat} {out : List (BitVec 8)}

theorem firstBytes_append : firstBytes buffer (n + m) = firstBytes buffer n ++ (List.range m).map fun j =>
    buffer (n + j) := by
  unfold firstBytes
  rw [List.range_add, List.map_append, List.map_map]
  rfl

def chunkAccepted (p : MbUartPeer) (length k sentTotal : Nat) : Nat :=
  if (p.writeReady k).toNat = 0 then 0
  else
    p.write k (if (length - sentTotal) % 65536 > (p.writeReady k).toNat then (p.writeReady k).toNat
      else (length - sentTotal) % 65536)

theorem chunkAccepted_le : chunkAccepted p length k sentTotal ≤ length - sentTotal := by
  unfold chunkAccepted
  split
  · exact Nat.zero_le _
  · refine (p.write_le k _).trans ?_
    have hmod := Nat.mod_le (length - sentTotal) (65536)
    split <;> omega

theorem sendLoop_succ (h : sentTotal < length) : sendLoop p buffer length (fuel + 1) k sentTotal retry out =
    if chunkAccepted p length k sentTotal = 0 then
      if retry + 1 > 10000 then some (sentTotal, out) else
        sendLoop p buffer length fuel (k + 1) sentTotal (retry + 1) out
    else sendLoop p buffer length fuel (k + 1) (sentTotal + chunkAccepted p length k sentTotal) 0
        (out ++ (List.range (chunkAccepted p length k sentTotal)).map fun j => buffer (sentTotal + j)) := by
  rw [sendLoop, if_pos h]
  by_cases hready : (p.writeReady k).toNat = 0
  · have hacc : chunkAccepted p length k sentTotal = 0 := by rw [chunkAccepted, if_pos hready]
    simp only [if_pos hready, if_pos hacc]
  · simp only [if_neg hready, chunkAccepted]

def sendLeft (length sentTotal retry : Nat) : Nat := (length - sentTotal) * 10001 + (10000 - retry)

theorem sendLeft_retry (h : ¬retry + 1 > 10000) :
    sendLeft length sentTotal (retry + 1) < sendLeft length sentTotal retry := by
  unfold sendLeft
  omega

theorem sendLeft_send (h : sentTotal < length) (hn : n ≠ 0) :
    sendLeft length (sentTotal + n) 0 < sendLeft length sentTotal retry := by
  unfold sendLeft
  have hstep : length - (sentTotal + n) + 1 ≤ length - sentTotal := by omega
  have hmul := Nat.mul_le_mul_right 10001 hstep
  omega

theorem sendLoop_ends (hfuel : sendLeft length sentTotal retry < fuel) (hle : sentTotal ≤ length) :
    ∃ n ≤ length, sendLoop p buffer length fuel k sentTotal retry (firstBytes buffer sentTotal) =
      some (n, firstBytes buffer n) := by
  induction fuel generalizing k sentTotal retry with
  | zero => exact absurd hfuel (Nat.not_lt_zero _)
  | succ fuel ih =>
    rcases Nat.lt_or_ge sentTotal length with hlt | hge
    · rw [sendLoop_succ hlt]
      by_cases hacc : chunkAccepted p length k sentTotal = 0
      · rw [if_pos hacc]
        by_cases hretry : retry + 1 > 10000
        · rw [if_pos hretry]
          exact ⟨sentTotal, hle, rfl⟩
        · rw [if_neg hretry]
          have hless : sendLeft length sentTotal (retry + 1) < sendLeft length sentTotal retry := sendLeft_retry hretry
          exact ih (by omega) hle
      · rw [if_neg hacc, ← firstBytes_append]
        have hless : sendLeft length (sentTotal + chunkAccepted p length k sentTotal) 0 < sendLeft length
            sentTotal retry :=
          sendLeft_send hlt hacc
        have hfit : chunkAccepted p length k sentTotal ≤ length - sentTotal := chunkAccepted_le
        exact ih (by omega) (by omega)
    · rw [sendLoop, if_neg (Nat.not_lt.2 hge)]
      exact ⟨sentTotal, hle, rfl⟩

end

def MbUartPeer.eager : MbUartPeer where
  writeReady _ := 0xFFFF
  write _ chunk := chunk
  write_le _ _ := Nat.le_refl _

section
variable {p : MbUartPeer} {uartOk : Bool} {buffer : Nat → BitVec 8} {length fuel : Nat}

theorem easyLogOutput_ends (hfuel : 10001 * (min length 0xFFFF + 1) ≤ fuel) :
    ∃ ret out, easyLogOutput ⟨true, .mbUart⟩ p uartOk fuel (some buffer) length = some (ret, out) ∧
      (length ≤ 0xFFFF → ret = 0 → out = firstBytes buffer length) := by
  unfold easyLogOutput
  simp only [Bool.true_eq_false, if_false]
  by_cases h0 : length = 0
  · rw [if_pos h0, h0]
    exact ⟨0, [], rfl, fun _ _ => rfl⟩
  · rw [if_neg h0]
    have hclamp : (if length > 0xFFFF then 0xFFFF else length) = min length 0xFFFF := by
      split <;> omega
    rw [hclamp]
    have hleft : sendLeft (min length 0xFFFF) 0 0 < fuel := by
      unfold sendLeft
      omega
    obtain ⟨n, hn, hrun⟩ : ∃ n ≤ min length 0xFFFF,
        sendLoop p buffer (min length 0xFFFF) fuel 0 0 0 (firstBytes buffer 0) = some (n, firstBytes buffer n) :=
      sendLoop_ends hleft (Nat.zero_le _)
    refine ⟨_, _, by rw [show ([] : List (BitVec 8)) = firstBytes buffer 0 from rfl, hrun]; rfl, ?_⟩
    intro hshort hret
    have hall : n = min length 0xFFFF := by
      by_contra hne
      rw [if_neg hne] at hret
      exact absurd hret (by decide)
    rw [hall, Nat.min_eq_left hshort]

theorem easyLogOutput_eager (hlong : 0xFFFF < length) :
    easyLogOutput ⟨true, .mbUart⟩ .eager uartOk (fuel + 2)
    (some buffer) length = some (0, firstBytes buffer 0xFFFF) := by
  have hacc : chunkAccepted .eager 0xFFFF 0 0 = 0xFFFF := by decide
  have hloop : sendLoop .eager buffer 0xFFFF (fuel + 2) 0 0 0 [] = some (0xFFFF, firstBytes buffer 0xFFFF) := by
    rw [sendLoop_succ (by decide), hacc, if_neg (by decide), sendLoop, if_neg (by decide)]
    simp only [List.nil_append, Nat.zero_add, firstBytes]
  simp only [easyLogOutput, Bool.true_eq_false, if_false, if_neg (show ¬length = 0 by omega), if_pos hlong, hloop,
    Option.map_some, if_true]

theorem firstBytes_inj {n m : Nat} (h : firstBytes buffer n = firstBytes buffer m) : n = m := by
  have hlen := congrArg List.length h
  simpa [firstBytes] using hlen

end

/-- For every buffer and every driver it ends, and it returns 0 only when every byte has been accepted, in order,
exactly for a text of at most 0xFFFF bytes. -/
theorem easy_log_output_complete (uartOk : Bool) (buffer : Nat → BitVec 8) (length : Nat) :
    (∀ (p : MbUartPeer) (fuel : Nat), 10001 * (min length 0xFFFF + 1) ≤ fuel →
      ∃ r, easyLogOutput ⟨true, .mbUart⟩ p uartOk fuel (some buffer) length = some r) ∧
    ((∀ (p : MbUartPeer) (fuel : Nat), 10001 * (min length 0xFFFF + 1) ≤ fuel →
      ∃ ret out, easyLogOutput ⟨true, .mbUart⟩ p uartOk fuel (some buffer) length = some (ret, out) ∧
        (ret = 0 → out = firstBytes buffer length)) ↔ length ≤ 0xFFFF) := by
  refine ⟨fun p fuel hfuel => ?_, fun h => ?_, fun hshort p fuel hfuel => ?_⟩
  · obtain ⟨ret, out, hrun, -⟩ := @easyLogOutput_ends p uartOk buffer length fuel hfuel
    exact ⟨_, hrun⟩
  · by_contra hlong
    obtain ⟨ret, out, hrun, hall⟩ := h .eager (10001 * (min length 0xFFFF) + 9999 + 2) (by omega)
    rw [easyLogOutput_eager (by omega)] at hrun
    cases hrun
    have hlen := firstBytes_inj (hall rfl)
    omega
  · obtain ⟨ret, out, hrun, hall⟩ := @easyLogOutput_ends p uartOk buffer length fuel hfuel
    exact ⟨ret, out, hrun, hall hshort⟩

theorem easy_log_output_complete_three : ∃ out,
    easyLogOutput ⟨true, .mbUart⟩ .eager true 40004 (some (BitVec.ofNat 8)) 3 = some (0, out) ∧ out = [0, 1, 2] := by
  obtain ⟨ret, out, hrun, hall⟩ :=
    (easy_log_output_complete true (BitVec.ofNat 8) 3).2.2 (by decide) .eager 40004 (by decide)
  have hzero : easyLogOutput ⟨true, .mbUart⟩ .eager true 40004 (some (BitVec.ofNat 8)) 3 = some (0, [0, 1, 2]) := by
    decide +kernel
  rw [hzero] at hrun
  cases hrun
  exact ⟨_, hzero, hall rfl⟩

/-- One byte more than the clamp: the last byte is never offered, and the result is 0. -/
theorem easy_log_output_clamps :
    easyLogOutput ⟨true, .mbUart⟩ .eager true 2 (some (BitVec.ofNat 8)) 65536 =
      some (0, firstBytes (BitVec.ofNat 8) 65535) ∧
      firstBytes (BitVec.ofNat 8) 65535 ≠ firstBytes (BitVec.ofNat 8) 65536 :=
  ⟨easyLogOutput_eager (by decide), fun h => absurd (firstBytes_inj h) (by decide)⟩

end Bk7258
