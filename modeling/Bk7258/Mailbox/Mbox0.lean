import Bk7258.Lib.Slots
import Bk7258.Mailbox.LinkInv

/-!
# The mbox0 mailbox

The mailbox of `mbox0_adapter.c` and `mbox0_drv.c`. A CPU has two message slots for each destination and uses them in
turn; what goes through the FIFO is the address of the slot. The receive interrupt reads the FIFO first and copies the
slot afterwards, and nothing keeps a slot from being written again before that.
-/

namespace Bk7258
open Lts Function

def set2 {α : Type} (f : Nat → Nat → α) (a b : Nat) (v : α) (c d : Nat) : α := if c = a ∧ d = b then v else f c d

@[simp] theorem set2_same {α : Type} (f : Nat → Nat → α) (a b : Nat) (v : α) : set2 f a b v a b = v := by
  simp [set2]

theorem set2_ne {α : Type} {f : Nat → Nat → α} {a b c d : Nat} {v : α} (h : ¬ (c = a ∧ d = b)) :
    set2 f a b v c d = f c d := by
  simp [set2, h]

def mboxChnlNum : Nat := 3
def txBoxNum : Nat := 2

def mbox0FifoLen : Nat → Nat
  | 0 => 2
  | _ => 3

/-- `mbox0_message_t` as `bk_mailbox_send` fills it: `data[0]` is the address of slot `box` that the
source CPU keeps for the destination. -/
structure Mbox0Message where
  srcCpu : Nat
  box : Nat
deriving DecidableEq, Repr

/-- What a `bk_mailbox_send` found: whether the FIFO was full, how many messages were uncopied, and whether one of them
is in the slot whose turn it is -/
structure SendRec where
  dst : Nat
  data : MailboxData
  full : Bool
  uncopied : Nat
  slotInUse : Bool
deriving DecidableEq, Repr

/-- The variables of the adapter on each CPU, the FIFOs, and `message`, the local variable of the interrupt handler.
`sends`, `sent` and `copied` are ghost. -/
structure Mbox0 where
  mailboxBuff : Nat → Nat → Nat → MailboxData := fun _ _ _ => ⟨0, 0, 0, 0⟩
  mailboxTxBox : Nat → Nat → Nat := fun _ _ => 0
  fifo : Nat → List Mbox0Message := fun _ => []
  message : Nat → Option Mbox0Message := fun _ => none
  sends : List SendRec := []
  sent : Nat → Nat → List MailboxData := fun _ _ => []
  copied : Nat → Nat → List MailboxData := fun _ _ => []

namespace Mbox0
variable (h : Mbox0) (src dst : Nat)

def uncopied : List Mbox0Message := (h.message dst).toList ++ h.fifo dst

def boxes : List Nat := ((h.uncopied dst).filter (·.srcCpu = src)).map (·.box)

def fly : List MailboxData := (h.boxes src dst).map (h.mailboxBuff src dst)

def nextBox : Nat := (h.mailboxTxBox src dst + 1) % txBoxNum

def fifoFull : Bool := mbox0FifoLen dst ≤ (h.fifo dst).length

def sendRec (data : MailboxData) : SendRec :=
  ⟨dst, data, h.fifoFull dst, (h.uncopied dst).length, h.nextBox src dst ∈ h.boxes src dst⟩

def push (data : MailboxData) : Mbox0 :=
  { h with
    mailboxTxBox := set2 h.mailboxTxBox src dst (h.nextBox src dst)
    mailboxBuff := set2 h.mailboxBuff src dst (update (h.mailboxBuff src dst) (h.nextBox src dst) data)
    fifo := update h.fifo dst (h.fifo dst ++ [⟨src, h.nextBox src dst⟩])
    sends := h.sends ++ [h.sendRec src dst data]
    sent := set2 h.sent src dst (h.sent src dst ++ [data]) }

end Mbox0

def bkMailboxSend (h : Mbox0) (src dst : Nat) (data : MailboxData) : BkErr × Mbox0 :=
  if mboxChnlNum ≤ dst then (.errMailboxSrcDst, h)
  else if h.fifoFull dst then (.errMailboxTimeout, { h with sends := h.sends ++ [h.sendRec src dst data] })
  else (.ok, h.push src dst data)

def mbox0DrvRecieveMessage (h : Mbox0) (cpu : Nat) : Option Mbox0 :=
  match h.message cpu, h.fifo cpu with
  | none, m :: rest =>
    some { h with message := update h.message cpu (some m), fifo := update h.fifo cpu rest }
  | _, _ => none

def mbox0RxIsr (h : Mbox0) (cpu : Nat) : Option (Nat × MailboxData × Mbox0) :=
  (h.message cpu).map fun m =>
    let data := h.mailboxBuff m.srcCpu cpu m.box
    (m.srcCpu, data,
      { h with
        message := update h.message cpu none
        copied := set2 h.copied m.srcCpu cpu (h.copied m.srcCpu cpu ++ [data]) })

def mbox0 : Hw Mbox0 where
  send := bkMailboxSend
  pop := mbox0DrvRecieveMessage
  copy := mbox0RxIsr

/-! ### What the operations do -/

section
variable {h h' : Mbox0} {src dst cpu : Nat} {data : MailboxData}

inductive SendStep (h : Mbox0) (src dst : Nat) (data : MailboxData) : BkErr × Mbox0 → Prop
  | badDst (hd : ¬ dst < mboxChnlNum) : SendStep h src dst data (.errMailboxSrcDst, h)
  | full (hf : h.fifoFull dst = true) :
      SendStep h src dst data (.errMailboxTimeout, { h with sends := h.sends ++ [h.sendRec src dst data] })
  | pushed (hf : h.fifoFull dst = false) : SendStep h src dst data (.ok, h.push src dst data)

theorem bkMailboxSend_step (h : Mbox0) (src dst : Nat) (data : MailboxData) :
    SendStep h src dst data (bkMailboxSend h src dst data) := by
  unfold bkMailboxSend
  split
  · exact .badDst (by omega)
  · split
    · exact .full ‹_›
    · exact .pushed (Bool.eq_false_of_not_eq_true ‹_›)

theorem mbox0DrvRecieveMessage_some (hp : mbox0DrvRecieveMessage h cpu = some h') :
    h'.uncopied = h.uncopied ∧ h'.mailboxBuff = h.mailboxBuff ∧ h'.mailboxTxBox = h.mailboxTxBox ∧
      h'.sends = h.sends ∧ h'.sent = h.sent ∧ h'.copied = h.copied := by
  unfold mbox0DrvRecieveMessage at hp
  split at hp
  · rename_i hm hf
    cases hp
    refine ⟨funext fun d => ?_, rfl, rfl, rfl, rfl, rfl⟩
    by_cases hd : d = cpu
    · subst hd; simp [Mbox0.uncopied, hm, hf]
    · simp [Mbox0.uncopied, hd]
  · cases hp

theorem boxes_push (c d : Nat) : (h.push src dst data).boxes c d =
    if c = src ∧ d = dst then h.boxes src dst ++ [h.nextBox src dst] else h.boxes c d := by
  by_cases hd : d = dst
  · subst hd
    by_cases hc : c = src
    · subst hc
      simp [Mbox0.boxes, Mbox0.uncopied, Mbox0.push]
    · simp [Mbox0.boxes, Mbox0.uncopied, Mbox0.push, hc, Ne.symm hc]
  · simp [Mbox0.boxes, Mbox0.uncopied, Mbox0.push, hd]

theorem fly_push (hb : h.nextBox src dst ∉ h.boxes src dst) (c d : Nat) : (h.push src dst data).fly c d =
    if c = src ∧ d = dst then h.fly src dst ++ [data] else h.fly c d := by
  unfold Mbox0.fly
  rw [boxes_push]
  split
  · rename_i hcd
    obtain ⟨rfl, rfl⟩ := hcd
    have hbuff : (h.push c d data).mailboxBuff c d = update (h.mailboxBuff c d) (h.nextBox c d) data := by
      simp [Mbox0.push]
    rw [hbuff, List.map_append, Slots.map_update _ _ hb]
    simp
  · rename_i hcd
    have hbuff : (h.push src dst data).mailboxBuff c d = h.mailboxBuff c d := by simp [Mbox0.push, set2_ne hcd]
    rw [hbuff]

variable {a : Nat}

theorem mbox0RxIsr_some (hc : mbox0RxIsr h cpu = some (a, data, h')) :
    h'.mailboxTxBox = h.mailboxTxBox ∧ h'.sends = h.sends ∧ h'.sent = h.sent ∧
    h'.copied = set2 h.copied a cpu (h.copied a cpu ++ [data]) ∧
    (∃ i, h.boxes a cpu = i :: h'.boxes a cpu) ∧ h.fly a cpu = data :: h'.fly a cpu ∧
    ∀ c d, ¬ (c = a ∧ d = cpu) → h'.boxes c d = h.boxes c d ∧ h'.fly c d = h.fly c d := by
  obtain ⟨m, hm, he⟩ := Option.map_eq_some_iff.1 hc
  cases he
  have hbox : h.boxes m.srcCpu cpu = m.box :: ((h.fifo cpu).filter (·.srcCpu = m.srcCpu)).map (·.box) := by
    simp [Mbox0.boxes, Mbox0.uncopied, hm]
  refine ⟨rfl, rfl, rfl, rfl, ⟨m.box, ?_⟩, ?_, fun c d hcd => ?_⟩
  · rw [hbox]; simp [Mbox0.boxes, Mbox0.uncopied]
  · unfold Mbox0.fly; rw [hbox]; simp [Mbox0.boxes, Mbox0.uncopied]
  · by_cases hd : d = cpu
    · subst hd
      have hne : m.srcCpu ≠ c := fun he => hcd ⟨he.symm, rfl⟩
      simp [Mbox0.fly, Mbox0.boxes, Mbox0.uncopied, hm, hne]
    · simp [Mbox0.fly, Mbox0.boxes, Mbox0.uncopied, hd]

/-! ### Intact slots -/

theorem fifoFull_of_uncopied (hl : (h.uncopied dst).length ≤ 1) : h.fifoFull dst = false := by
  have hf : (h.fifo dst).length ≤ 1 := by
    simp only [Mbox0.uncopied, List.length_append] at hl
    omega
  have h2 : 2 ≤ mbox0FifoLen dst := by unfold mbox0FifoLen; split <;> omega
  simp only [Mbox0.fifoFull, decide_eq_false_iff_not]
  omega

/-- The uncopied messages are in the last slots of the rotation, they are what was sent and not copied out yet, no send
wrote to a slot in use, and none was refused with at most one message before it. -/
structure Mbox0.Intact (h : Mbox0) : Prop where
  rot : ∀ src dst, Slots.Rotation txBoxNum (h.mailboxTxBox src dst) (h.boxes src dst)
  sent : ∀ src dst, h.sent src dst = h.copied src dst ++ h.fly src dst
  unused : ∀ r ∈ h.sends, r.full = false → r.slotInUse = false
  room : ∀ r ∈ h.sends, r.uncopied ≤ 1 → r.full = false

structure Mbox0.Empty (h : Mbox0) : Prop where
  uncopied : ∀ d, h.uncopied d = []
  txBox : ∀ src dst, h.mailboxTxBox src dst < txBoxNum
  sends : h.sends = []
  sent : ∀ src dst, h.sent src dst = []
  copied : ∀ src dst, h.copied src dst = []

theorem Mbox0.empty_init : Mbox0.Empty {} :=
  ⟨fun _ => rfl, fun _ _ => Nat.two_pos, rfl, fun _ _ => rfl, fun _ _ => rfl⟩

theorem Mbox0.Empty.boxes (he : h.Empty) : h.boxes src dst = [] := by
  simp [Mbox0.boxes, he.uncopied]

theorem Mbox0.Empty.fly (he : h.Empty) : h.fly src dst = [] := by
  simp [Mbox0.fly, he.boxes]

theorem Mbox0.Empty.intact (he : h.Empty) : h.Intact where
  rot src dst := by rw [he.boxes]; exact .nil (he.txBox src dst)
  sent src dst := by rw [he.sent, he.copied, he.fly]; rfl
  unused r hr := by rw [he.sends] at hr; cases hr
  room r hr := by rw [he.sends] at hr; cases hr

theorem Mbox0.boxes_length_le : (h.boxes src dst).length ≤ (h.uncopied dst).length := by
  simp only [Mbox0.boxes, List.length_map]
  exact List.length_filter_le _ _

theorem Mbox0.Intact.nextBox_unused (hi : h.Intact) (hl : (h.uncopied dst).length ≤ 1) :
    h.nextBox src dst ∉ h.boxes src dst :=
  (hi.rot src dst).fresh (Nat.lt_succ_of_le (h.boxes_length_le.trans hl))

theorem Mbox0.Intact.push (hi : h.Intact) (hl : (h.uncopied dst).length ≤ 1) : (h.push src dst data).Intact where
  rot c d := by
    rw [boxes_push]
    split
    · rename_i hcd
      obtain ⟨rfl, rfl⟩ := hcd
      simpa [Mbox0.push, Mbox0.nextBox] using (hi.rot c d).push (Nat.lt_succ_of_le (h.boxes_length_le.trans hl))
    · rename_i hcd
      simpa [Mbox0.push, set2_ne hcd] using hi.rot c d
  sent c d := by
    rw [fly_push (hi.nextBox_unused hl)]
    split
    · rename_i hcd
      obtain ⟨rfl, rfl⟩ := hcd
      simp [Mbox0.push, hi.sent c d]
    · rename_i hcd
      simpa [Mbox0.push, set2_ne hcd] using hi.sent c d
  unused r hr hf := by
    rcases List.mem_append.1 hr with hr | hr
    · exact hi.unused r hr hf
    · obtain rfl := List.mem_singleton.1 hr
      exact decide_eq_false (hi.nextBox_unused hl)
  room r hr hl := by
    rcases List.mem_append.1 hr with hr | hr
    · exact hi.room r hr hl
    · obtain rfl := List.mem_singleton.1 hr
      exact fifoFull_of_uncopied hl

theorem Mbox0.Intact.refused (hi : h.Intact) (hf : h.fifoFull dst) :
    Mbox0.Intact { h with sends := h.sends ++ [h.sendRec src dst data] } where
  rot := hi.rot
  sent := hi.sent
  unused r hr hf' := by
    rcases List.mem_append.1 hr with hr | hr
    · exact hi.unused r hr hf'
    · obtain rfl := List.mem_singleton.1 hr
      rw [Mbox0.sendRec, hf] at hf'
      cases hf'
  room r hr hl := by
    rcases List.mem_append.1 hr with hr | hr
    · exact hi.room r hr hl
    · obtain rfl := List.mem_singleton.1 hr
      exact fifoFull_of_uncopied hl

theorem Mbox0.Intact.pop (hi : h.Intact) (hp : mbox0DrvRecieveMessage h cpu = some h') : h'.Intact := by
  obtain ⟨hu, hb, ht, hs, hst, hc⟩ := mbox0DrvRecieveMessage_some hp
  have hbox : h'.boxes = h.boxes := by unfold Mbox0.boxes; rw [hu]
  have hfly : h'.fly = h.fly := by unfold Mbox0.fly; rw [hbox, hb]
  refine ⟨?_, ?_, ?_, ?_⟩
  · rw [ht, hbox]; exact hi.rot
  · rw [hst, hc, hfly]; exact hi.sent
  · rw [hs]; exact hi.unused
  · rw [hs]; exact hi.room

theorem Mbox0.Intact.copy (hi : h.Intact) (hc : mbox0RxIsr h cpu = some (a, data, h')) : h'.Intact := by
  obtain ⟨ht, hs, hst, hcp, ⟨i, hb⟩, hf, hne⟩ := mbox0RxIsr_some hc
  refine ⟨fun c d => ?_, fun c d => ?_, by rw [hs]; exact hi.unused, by rw [hs]; exact hi.room⟩
  · by_cases hcd : c = a ∧ d = cpu
    · obtain ⟨rfl, rfl⟩ := hcd
      have hr := hi.rot c d
      rw [hb] at hr
      rw [ht]; exact hr.tail
    · rw [ht, (hne c d hcd).1]; exact hi.rot c d
  · by_cases hcd : c = a ∧ d = cpu
    · obtain ⟨rfl, rfl⟩ := hcd
      rw [hst, hcp, set2_same, hi.sent c d, hf]
      simp
    · rw [hst, hcp, set2_ne hcd, (hne c d hcd).2]; exact hi.sent c d

/-! ### The mailbox meets the laws -/

def Mbox0.Kept (P : SendRec → Prop) (h : Mbox0) : Prop := ∀ r ∈ h.sends, P r

def Mbox0.IntactIf (P : SendRec → Prop) (h : Mbox0) : Prop := h.Kept P → h.Intact

def SendRec.Roomy (r : SendRec) : Prop := r.full = false → r.uncopied ≤ 1

instance (P : SendRec → Prop) [DecidablePred P] : Decidable (h.Kept P) := List.decidableBAll P h.sends
instance : DecidablePred SendRec.Roomy := fun r => inferInstanceAs (Decidable (r.full = false → r.uncopied ≤ 1))

variable {P : SendRec → Prop}

theorem Mbox0.kept_snoc {r : SendRec} : Mbox0.Kept P { h with sends := h.sends ++ [r] } ↔ h.Kept P ∧ P r := by
  simp [Mbox0.Kept, or_imp, forall_and]

theorem Mbox0.kept_push : (h.push src dst data).Kept P ↔ h.Kept P ∧ P (h.sendRec src dst data) :=
  kept_snoc

theorem Mbox0.IntactIf.send (hP : ∀ r, P r → r.Roomy) (hw : h.IntactIf P) :
    (bkMailboxSend h src dst data).2.IntactIf P := by
  have hs := bkMailboxSend_step h src dst data
  generalize bkMailboxSend h src dst data = r at hs
  intro hk
  cases hs with
  | badDst => exact hw hk
  | full hf => exact (hw (kept_snoc.1 hk).1).refused hf
  | pushed hf =>
    obtain ⟨hk, hr⟩ := kept_push.1 hk
    exact (hw hk).push (hP _ hr hf)

theorem Mbox0.IntactIf.pop (hw : h.IntactIf P) (hp : mbox0DrvRecieveMessage h cpu = some h') : h'.IntactIf P := by
  intro hk
  unfold Mbox0.Kept at hk
  rw [(mbox0DrvRecieveMessage_some hp).2.2.2.1] at hk
  exact (hw hk).pop hp

theorem Mbox0.IntactIf.copy (hw : h.IntactIf P) (hc : mbox0RxIsr h cpu = some (a, data, h')) : h'.IntactIf P := by
  intro hk
  unfold Mbox0.Kept at hk
  rw [(mbox0RxIsr_some hc).2.1] at hk
  exact (hw hk).copy hc

theorem uncopied_length_of_alone (ha : ∀ c, c ≠ src → h.fly c dst = []) :
    (h.uncopied dst).length = (h.fly src dst).length := by
  have hall : ∀ m ∈ h.uncopied dst, m.srcCpu = src := by
    intro m hm
    by_contra hne
    have hmem : m.box ∈ h.boxes m.srcCpu dst := List.mem_map.2 ⟨m, by simp [hm], rfl⟩
    have hnil := ha m.srcCpu hne
    simp only [Mbox0.fly, List.map_eq_nil_iff] at hnil
    rw [hnil] at hmem
    cases hmem
  have hfilter : (h.uncopied dst).filter (·.srcCpu = src) = h.uncopied dst :=
    List.filter_eq_self.2 fun m hm => by simpa using hall m hm
  simp [Mbox0.fly, Mbox0.boxes, hfilter]

/-! The laws of a send, for the results of `bkMailboxSend`. -/

variable {r : BkErr × Mbox0}

section
variable (hs : SendStep h src dst data r)
include hs

theorem SendStep.kept (hk : r.2.Kept P) : h.Kept P := by
  cases hs with
  | badDst => exact hk
  | full => exact (Mbox0.kept_snoc.1 hk).1
  | pushed => exact (Mbox0.kept_push.1 hk).1

theorem SendStep.fly_of_ok (hP : ∀ r, P r → r.Roomy)
    (hw : h.IntactIf P) (hk : r.2.Kept P) (hok : r.1 = .ok) (c d : Nat) :
    r.2.fly c d = if c = src ∧ d = dst then h.fly src dst ++ [data] else h.fly c d := by
  cases hs with
  | badDst | full => cases hok
  | pushed hf =>
    obtain ⟨hk, hr⟩ := Mbox0.kept_push.1 hk
    exact fly_push ((hw hk).nextBox_unused (hP _ hr hf)) c d

theorem SendStep.fly_of_err (hne : r.1 ≠ .ok) : r.2.fly = h.fly := by
  cases hs with
  | badDst | full => rfl
  | pushed => exact absurd rfl hne

theorem SendStep.ack_ok (hack : ∀ r, P r → r.data.isAck → r.uncopied ≤ 1) (hd : dst < mboxChnlNum)
    (hm : data.isAck) (hk : r.2.Kept P) : r.1 = .ok := by
  cases hs with
  | badDst hd' => exact absurd hd hd'
  | full hf =>
    have hl := hack _ (Mbox0.kept_snoc.1 hk).2 hm
    rw [fifoFull_of_uncopied hl] at hf
    cases hf
  | pushed => rfl

theorem SendStep.room_ok (hroom : ∀ r, r.full = false → r.uncopied ≤ 1 → P r) (hd : dst < mboxChnlNum) (hk : h.Kept P)
    (hl : (h.uncopied dst).length ≤ 1) : r.1 = .ok ∧ r.2.Kept P := by
  cases hs with
  | badDst hd' => exact absurd hd hd'
  | full hf => rw [fifoFull_of_uncopied hl] at hf; cases hf
  | pushed hf => exact ⟨rfl, Mbox0.kept_push.2 ⟨hk, hroom _ hf hl⟩⟩

end

/-- The mailbox meets the laws as long as its sends satisfy `P`, if this says at least that each message and each ACK
finds at most one uncopied message. -/
theorem mbox0_laws (hP : ∀ r, P r → r.Roomy) (hack : ∀ r, P r → r.data.isAck → r.uncopied ≤ 1)
    (hroom : ∀ r, r.full = false → r.uncopied ≤ 1 → P r) :
    mbox0.Laws Mbox0.fly (Mbox0.IntactIf P) (Mbox0.Kept P) where
  send_wf hw := hw.send hP
  pop_wf hw hp := hw.pop hp
  copy_wf hw hc := hw.copy hc
  send_good hk := (bkMailboxSend_step _ _ _ _).kept hk
  pop_good hp := by unfold Mbox0.Kept; rw [(mbox0DrvRecieveMessage_some hp).2.2.2.1]
  copy_good hc := by unfold Mbox0.Kept; rw [(mbox0RxIsr_some hc).2.1]
  send_ok hw hk hok := (bkMailboxSend_step _ _ _ _).fly_of_ok hP hw hk hok
  send_err hne := (bkMailboxSend_step _ _ _ _).fly_of_err hne
  send_ack _ hb hm hk := (bkMailboxSend_step _ _ _ _).ack_ok hack hb hm hk
  send_room _ hk hb ha hl := by
    rw [← uncopied_length_of_alone ha] at hl
    exact (bkMailboxSend_step _ _ _ _).room_ok hroom hb hk hl
  pop_fly hp := by
    obtain ⟨hu, hb, -⟩ := mbox0DrvRecieveMessage_some hp
    funext c d
    simp only [Mbox0.fly, Mbox0.boxes, hu, hb]
  copy_fly _ _ hc := by
    obtain ⟨-, -, -, -, -, hf, hne⟩ := mbox0RxIsr_some hc
    exact ⟨hf, fun d e hde => (hne d e hde).2⟩

end
end Bk7258
