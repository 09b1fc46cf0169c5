import Mathlib.Data.List.Nodup
import Mathlib.Data.List.Range
import Bk7258.Lib.Linked
import Bk7258.Wdrv.Tx

/-!
# The list that goes to the peer

A transmit list is linked through the packets. `wdrv_txdata_pre_process` hands it over as an `ipc_chnl_node_t` with its
first packet, its last and their number; the receiver walks as many packets as the number says. The number has eight
bits, the list has no bound.
-/

namespace Bk7258
open Lts Linked Function

abbrev CoHeap := Nat → Option Nat

structure CoList where
  first : Option Nat
  last : Option Nat
deriving DecidableEq, Repr

def coListInit : CoList := ⟨none, none⟩

def coListPushBack (next : CoHeap) (list : CoList) (listHdr : Nat) : CoHeap × CoList :=
  match list.first with
  | none => (update next listHdr none, ⟨some listHdr, some listHdr⟩)
  | some first =>
    let next :=
      match list.last with
      | none => next
      | some last => update next last (some listHdr)
    (update next listHdr none, ⟨some first, some listHdr⟩)

/-- The loop of `co_list_cnt`; a chain of more cells than there are addresses has no end. -/
def coListCnt (next : CoHeap) : (fuel : Nat) → (elt : Option Nat) → Nat
  | 0, _ => 0
  | _ + 1, none => 0
  | fuel + 1, some elt => coListCnt next fuel (next elt) + 1

/-- `ipc_chnl_node_t`. The codes of the channels are `RX_BK_CMD_DATA` and `TX_MSDU_DATA`. -/
structure IpcChnlNode where
  head : Option Nat
  tail : Option Nat
  channel : WdrvChnl
  num : Nat
deriving DecidableEq, Repr

inductive TxRead
  | errExit
  | assert
  | push (node : IpcChnlNode)
deriving DecidableEq, Repr

/-- `wdrv_txdata_pre_process` once it has set `sending_flag` -/
def wdrvTxdataRead (next : CoHeap) (list : CoList) (c : WdrvChnl) : TxRead :=
  -- `num` is a `uint8_t`
  let num := coListCnt next 0x100000000 list.first % 256
  if list.first ≠ none ∧ list.last ≠ none ∧ num = 0 then .assert
  else if list.first = none then .errExit
  else .push ⟨list.first, list.last, c, num⟩

def TxRead.task (c : WdrvChnl) : TxRead → WdrvTask
  | .errExit => .errExit c
  | .assert => .assert c
  | .push _ => .write c

def WdrvChnl.rxType : WdrvChnl → WdrvMsgType
  | .cmd => .event
  | .data => .rxdata

/-- The loop of `wdrv_recv_buffer`; `num_temp` has eight bits. The messages it sends. -/
def recvLoop (next : CoHeap) (node : IpcChnlNode) :
    (fuel : Nat) → (head : Option Nat) → (numTemp : Nat) → List (WdrvMsgType × Nat)
  | 0, _, _ => []
  | _ + 1, none, _ => []
  | fuel + 1, some head, numTemp =>
    let numTemp := (numTemp + 1) % 256
    (node.channel.rxType, head) ::
      if numTemp = node.num ∨ next head = none then [] else recvLoop next node fuel (next head) numTemp

/-- After 256 packets `num_temp` has had every value. -/
def wdrvRecvBuffer (next : CoHeap) (node : IpcChnlNode) : List (WdrvMsgType × Nat) := recvLoop next node 256 node.head 0

/-! ## Lists and their packets -/

structure CoList.Holds (list : CoList) (next : CoHeap) (l : List Nat) : Prop where
  chain : Chain next list.first l
  last : list.last = l.getLast?

section
variable {next : CoHeap} {list : CoList} {l : List Nat}

theorem CoList.Holds.pushBack {hdr : Nat} (h : list.Holds next l) (hh : hdr ∉ l) :
    (coListPushBack next list hdr).2.Holds (coListPushBack next list hdr).1 (l ++ [hdr]) := by
  obtain ⟨first, last⟩ := list
  obtain ⟨hchain, hlast⟩ := h
  rcases List.eq_nil_or_concat l with rfl | ⟨m, a, rfl⟩
  · cases hchain
    exact ⟨⟨rfl, update_self ..⟩, rfl⟩
  · have hfirst : ∃ f, first = some f := by
      cases m with
      | nil | cons b m => exact ⟨_, hchain.1⟩
    obtain ⟨f, rfl⟩ := hfirst
    rw [List.concat_eq_append] at *
    rw [List.getLast?_concat] at hlast
    cases hlast
    exact ⟨hchain.snoc hh, by rw [List.getLast?_concat]; rfl⟩

def coListPushAll (next : CoHeap) (packets : List Nat) : CoHeap × CoList :=
  packets.foldl (fun s hdr => coListPushBack s.1 s.2 hdr) (next, coListInit)

theorem holds_pushAll (next : CoHeap) {packets : List Nat} (hnd : packets.Nodup) :
    (coListPushAll next packets).2.Holds (coListPushAll next packets).1 packets := by
  induction packets using List.reverseRecOn with
  | nil => exact ⟨rfl, rfl⟩
  | append_singleton l hdr ih =>
    obtain ⟨hl, -, hd⟩ := List.nodup_append.1 hnd
    unfold coListPushAll at ih ⊢
    rw [List.foldl_append]
    exact (ih hl).pushBack fun hm => hd hdr hm hdr (List.mem_singleton_self hdr) rfl

theorem coListCnt_chain {p : Option Nat} {fuel : Nat} (h : Chain next p l) (hfuel : l.length ≤ fuel) :
    coListCnt next fuel p = l.length := by
  induction l generalizing p fuel with
  | nil =>
    cases h
    cases fuel <;> rfl
  | cons a l ih =>
    obtain ⟨rfl, h⟩ := h
    cases fuel with
    | zero => cases hfuel
    | succ fuel => exact congrArg (· + 1) (ih h (Nat.le_of_succ_le_succ hfuel))

theorem CoList.Holds.first_eq_none (h : list.Holds next l) : list.first = none ↔ l = [] := by
  obtain ⟨hchain, -⟩ := h
  cases l with
  | nil => exact iff_of_true hchain rfl
  | cons a l => exact iff_of_false (by rw [hchain.1]; exact Option.some_ne_none a) (List.cons_ne_nil a l)

theorem CoList.Holds.last_eq_none (h : list.Holds next l) : list.last = none ↔ l = [] := by
  rw [h.last, List.getLast?_eq_none_iff]

theorem wdrvTxdataRead_holds (h : list.Holds next l) (hlen : l.length ≤ 0x100000000) (c : WdrvChnl) :
    wdrvTxdataRead next list c = if l = [] then .errExit else if l.length % 256 = 0 then .assert
      else .push ⟨l.head?, l.getLast?, c, l.length % 256⟩ := by
  unfold wdrvTxdataRead
  simp only [coListCnt_chain h.chain hlen, ne_eq, h.first_eq_none, h.last_eq_none]
  by_cases hl : l = []
  · rw [if_neg fun hc => hc.1 hl, if_pos hl, if_pos hl]
  rw [if_neg hl, if_neg hl]
  by_cases hnum : l.length % 256 = 0
  · rw [if_pos ⟨hl, hl, hnum⟩, if_pos hnum]
  · rw [if_neg fun hc => hnum hc.2.2, if_neg hnum, h.last]
    cases l with
    | nil => exact absurd rfl hl
    | cons a l => rw [h.chain.1, List.head?_cons]

theorem taskStep_read {s : WdrvSys} {c : WdrvChnl} (hs : s.task = .read c) (h : list.Holds next (s.ipc c).txList)
    (hlen : (s.ipc c).txList.length ≤ 0x100000000) (w : Bool) :
    s.taskStep w = some { s with task := (wdrvTxdataRead next list c).task c } := by
  rw [wdrvTxdataRead_holds h hlen]
  unfold WdrvSys.taskStep
  rw [hs]
  dsimp only
  by_cases hl : (s.ipc c).txList = []
  · rw [if_pos hl, if_pos hl]
    rfl
  rw [if_neg hl, if_neg hl]
  by_cases hnum : (s.ipc c).txList.length % 256 = 0
  · rw [if_pos hnum, if_pos hnum]
    rfl
  · rw [if_neg hnum, if_neg hnum]
    rfl

theorem recvLoop_chain {node : IpcChnlNode} {p : Option Nat} {fuel k : Nat} (h : Chain next p l) (hk : k < node.num)
    (hnum : node.num ≤ 255) (hfuel : node.num - k ≤ fuel) :
    recvLoop next node fuel p k = (l.take (node.num - k)).map (Prod.mk node.channel.rxType) := by
  induction l generalizing p fuel k with
  | nil =>
    cases h
    rw [List.take_nil]
    cases fuel <;> rfl
  | cons a l ih =>
    obtain ⟨rfl, h⟩ := h
    obtain ⟨fuel, rfl⟩ : ∃ f, fuel = f + 1 := ⟨fuel - 1, by omega⟩
    obtain ⟨n, hn⟩ : ∃ n, node.num - k = n + 1 := ⟨node.num - k - 1, by omega⟩
    have htemp : (k + 1) % 256 = k + 1 := Nat.mod_eq_of_lt (by omega)
    rw [hn, List.take_succ_cons, List.map_cons, recvLoop, htemp]
    congr 1
    by_cases hlast : k + 1 = node.num
    · rw [if_pos (.inl hlast), show n = 0 by omega]
      rfl
    -- the list may end before the number is reached
    by_cases hend : next a = none
    · rw [if_pos (.inr hend)]
      rw [hend] at h
      cases l with
      | nil => rw [List.take_nil]; rfl
      | cons b l => cases h.1
    · rw [if_neg (not_or_intro hlast hend), ih h (by omega) (by omega), show node.num - (k + 1) = n by omega]

theorem num_lt {c : WdrvChnl} {node : IpcChnlNode} (h : wdrvTxdataRead next list c = .push node) : node.num < 256 := by
  unfold wdrvTxdataRead at h
  dsimp only at h
  split at h
  · cases h
  · split at h
    · cases h
    · cases h
      exact Nat.mod_lt _ (by decide)

/-- The node has the number of the packets, and the receiver handles all of them, the one at the tail last, exactly when
there are at most 255. -/
theorem node_whole_list {s : WdrvSys} {c : WdrvChnl} (hs : s.task = .read c) (h : list.Holds next (s.ipc c).txList)
    (hne : (s.ipc c).txList ≠ []) :
    (∃ node, wdrvTxdataRead next list c = .push node ∧ node.num = (s.ipc c).txList.length ∧
      wdrvRecvBuffer next node = (s.ipc c).txList.map (Prod.mk c.rxType) ∧ node.tail = (s.ipc c).txList.getLast? ∧
      ∀ w, s.taskStep w = some { s with task := .write c }) ↔ (s.ipc c).txList.length ≤ 255 := by
  constructor
  · rintro ⟨node, hread, hnum, -⟩
    have hlt := num_lt hread
    omega
  · intro hlen
    generalize hl : (s.ipc c).txList = l at *
    have hpos := List.length_pos_iff.2 hne
    have hmod : l.length % 256 = l.length := Nat.mod_eq_of_lt (by omega)
    have hread : wdrvTxdataRead next list c = .push ⟨l.head?, l.getLast?, c, l.length⟩ := by
      rw [wdrvTxdataRead_holds h (by omega), if_neg hne, hmod, if_neg (by omega)]
    refine ⟨_, hread, rfl, ?_, rfl, fun w => ?_⟩
    · have hhead : l.head? = list.first := by
        cases l with
        | nil => exact absurd rfl hne
        | cons a l => exact h.chain.1.symm
      have hchain : Chain next l.head? l := hhead ▸ h.chain
      refine (recvLoop_chain hchain hpos hlen (Nat.le_succ_of_le hlen)).trans ?_
      rw [Nat.sub_zero, List.take_length]
    · rw [taskStep_read hs (hl ▸ h) (by rw [hl]; omega), hread]
      rfl

theorem node_whole_list_three :
    ∃ node, wdrvTxdataRead (coListPushAll (fun _ => none) [7, 3, 5]).1
      (coListPushAll (fun _ => none) [7, 3, 5]).2 .data =
        .push node ∧ node.num = 3 ∧
      wdrvRecvBuffer (coListPushAll (fun _ => none) [7, 3, 5]).1 node = [(.rxdata, 7), (.rxdata, 3), (.rxdata, 5)] ∧
      node.tail = some 5 := by
  obtain ⟨node, hread, hnum, hrecv, htail, -⟩ := (@node_whole_list _ _ { task := .read .data, ipc := fun _ =>
    { txList := [7, 3, 5] } } .data rfl (holds_pushAll (fun _ => none)
      (by decide)) (List.cons_ne_nil _ _)).2 (by decide)
  exact ⟨node, hread, hnum, hrecv, htail⟩

end

/-! ## A busy channel -/

namespace WdrvSys

def dataSys (ioQueue : List WdrvMsg) (e : WdrvIpc) (task : WdrvTask) : WdrvSys where
  ioQueue := ioQueue
  ipc
    | .cmd => {}
    | .data => e
  task := task

theorem setIpc_dataSys (q : List WdrvMsg) (e e' : WdrvIpc) (task : WdrvTask) :
    (dataSys q e task).setIpc .data e' = dataSys q e' task := by
  unfold dataSys setIpc
  congr 1
  funext c
  cases c with
  | cmd => exact update_of_ne WdrvChnl.noConfusion ..
  | data => exact update_self ..

theorem setIpc_task_dataSys (q : List WdrvMsg) (e e' : WdrvIpc) (task task' : WdrvTask) :
    some { (dataSys q e task).setIpc .data e' with task := task' } = some (dataSys q e' task') := by
  rw [setIpc_dataSys]
  rfl

variable {q : List WdrvMsg} {e : WdrvIpc} {l : List Nat}

theorem run_push (x : Nat) :
    Run step (fun _ _ => True) (dataSys [] e .idle)
    (dataSys [] { e with txList := e.txList ++ [x] } (.flag .data)) := by
  have h₁ : Run step (fun _ _ => True) (dataSys [] e .idle) (dataSys [⟨.txdata, x, false⟩] e .idle) :=
    .tail (l := .post .txdata x) .refl trivial rfl
  have h₂ := h₁.tail (l := .task true) (u := dataSys [] e (.push .data x)) trivial rfl
  exact h₂.tail (l := .task true) trivial (setIpc_task_dataSys [] e _ (.push .data x) _)

theorem run_flag : Run step (fun _ _ => True) (dataSys q ⟨false, l, false, .idle⟩ (.flag .data))
    (dataSys q ⟨true, l, false, .idle⟩ (.read .data)) := by
  have h₁ : Run step (fun _ _ => True) (dataSys q ⟨false, l, false, .idle⟩ (.flag .data))
      (dataSys q ⟨false, l, false, .idle⟩ (.set .data)) := .tail (l := .task true) .refl trivial rfl
  exact h₁.tail (l := .task true) trivial (setIpc_task_dataSys q ⟨false, l, false, .idle⟩ _ (.set .data) _)

theorem run_first : Run step (fun _ _ => True) {} (dataSys [] ⟨true, [], true, .idle⟩ .idle) := by
  have h₀ : ({} : WdrvSys) = dataSys [] {} .idle := by
    unfold dataSys
    congr 1
    funext c
    cases c <;> rfl
  have h₁ := (run_push (e := {}) 0).trans run_flag
  have h₂ := h₁.tail (l := .task true) (u := dataSys [] ⟨true, [0], false, .idle⟩ (.write .data)) trivial rfl
  have h₃ := h₂.tail (l := WdrvAct.task true) trivial (setIpc_task_dataSys [] ⟨true, [0], false, .idle⟩
    ⟨true, [0], true, .idle⟩ (.write .data) (.init .data))
  rw [h₀]
  exact h₃.tail (l := .task true) trivial (setIpc_task_dataSys [] ⟨true, [0], true, .idle⟩ _ (.init .data) _)

theorem run_busy (l : List Nat) : Run step (fun _ _ => True) {} (dataSys [] ⟨true, l, true, .idle⟩ .idle) := by
  induction l using List.reverseRecOn with
  | nil => exact run_first
  | append_singleton l x ih => exact (ih.trans (run_push x)).tail (l := .task true) trivial rfl

theorem run_waiting (hl : l ≠ []) : Run step (fun _ _ => True) {}
    (dataSys [] ⟨true, l, false, .idle⟩ (.read .data)) := by
  have h₁ := (run_busy l).tail (l := WdrvAct.complete .data) trivial
    (congrArg some (setIpc_dataSys [] ⟨true, l, true, .idle⟩ ⟨false, l, false, .test⟩ .idle))
  have htest : (dataSys [] ⟨false, l, false, .test⟩ .idle).step (.isr .data) =
      some (dataSys [] ⟨false, l, false, .post⟩ .idle) := by
    show some ((dataSys _ _ _).setIpc .data ⟨false, l, false, if l = [] then .idle else .post⟩) = _
    rw [setIpc_dataSys, if_neg hl]
  have hpost : (dataSys [] ⟨false, l, false, .post⟩ .idle).step (.isr .data) =
      some (dataSys [WdrvChnl.data.retryMsg] ⟨false, l, false, .idle⟩ .idle) := by
    show some (((dataSys _ _ _).setIpc .data ⟨false, l, false, .idle⟩).pushToQueue _) = _
    rw [setIpc_dataSys]
    rfl
  have h₂ := ((h₁.tail trivial htest).tail trivial hpost).tail (l := .task true)
    (u := dataSys [] ⟨false, l, false, .idle⟩ (.flag .data)) trivial rfl
  exact h₂.trans run_flag

end WdrvSys

/-- With 257 packets the receiver handles the first one only; with 256 the number is 0 and the driver stops. -/
theorem node_truncated :
    (let s := coListPushAll (fun _ => none) (List.range 257)
     wdrvTxdataRead s.1 s.2 .data = .push ⟨some 0, some 256, .data, 1⟩ ∧
       wdrvRecvBuffer s.1 ⟨some 0, some 256, .data, 1⟩ = [(.rxdata, 0)]) ∧
    (let s := coListPushAll (fun _ => none) (List.range 256)
     wdrvTxdataRead s.1 s.2 .data = .assert) ∧
    ∀ n, 0 < n → ∃ t, Run WdrvSys.step (fun _ _ => True) {} t ∧ t.task = .read .data ∧
      (t.ipc .data).txList = List.range n := by
  refine ⟨?_, ?_, ?_⟩
  · intro s
    have h : s.2.Holds s.1 (List.range 257) := holds_pushAll _ List.nodup_range
    have hfirst : s.2.first = some 0 := h.chain.1
    constructor
    · rw [wdrvTxdataRead_holds h (by simp)]
      simp [List.head?_range, List.getLast?_range]
    · have hchain : Chain s.1 (some 0) (List.range 257) := hfirst ▸ h.chain
      exact recvLoop_chain hchain (by decide) (by decide) (by decide)
  · intro s
    have h : s.2.Holds s.1 (List.range 256) := holds_pushAll _ List.nodup_range
    rw [wdrvTxdataRead_holds h (by simp)]
    simp
  · intro n hn
    refine ⟨_, WdrvSys.run_waiting (l := List.range n) ?_, rfl, rfl⟩
    intro h
    rw [List.range_eq_nil] at h
    omega

end Bk7258
