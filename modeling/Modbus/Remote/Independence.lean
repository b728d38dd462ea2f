import Modbus.Library.Independence
import Modbus.Remote.Reads

/-!
# Calls that do not meet

Calls that have no cell in common do not depend on each other, whatever becomes of their exchanges:
no datagram of one is ever taken for one of the other, so they may as well be made in another order.

* `Call.told_perform_congr`: what a call tells comes from the cells that it reads.
* `Call.independent_of_spans`: calls on ranges that do not overlap have no cell in common.
* `reorder_independent`: the same calls in another order.
-/

namespace Modbus

open Linearization

theorem Memory.eq_of_table {m m' : Memory} (h : ∀ op a, m.table op a = m'.table op a) : m = m' := by
  obtain ⟨coils, inputs, holding, input, _, _⟩ := m
  obtain ⟨coils', inputs', holding', input', _, _⟩ := m'
  obtain rfl : coils = coils' := funext (h .readCoils)
  obtain rfl : inputs = inputs' := funext (h .readDiscreteInputs)
  obtain rfl : holding = holding' := funext (h .readHoldingRegisters)
  obtain rfl : input = input' := funext (h .readInputRegisters)
  rfl

namespace Call

/-! ### What calls have in common -/

/-- The cells that a call reads. -/
def Reads (op : ReadOp) (a : UInt16) : Call → Prop
  | read op' address quantity _ =>
    op' = op ∧ ∃ i < quantity.toNat, a = address + UInt16.ofNat i
  | writeSingle _ _ _ => False
  | writeMultiple _ _ _ => False

/-- `call` writes no cell that `call'` reads or writes. -/
def LeavesAlone (call call' : Call) : Prop :=
  ∀ op a, call.writes op a ≠ none → ¬ call'.Reads op a ∧ call'.writes op a = none

/-- Two calls that have no cell in common, other than cells that both of them read. -/
def Independent (call call' : Call) : Prop := call.LeavesAlone call' ∧ call'.LeavesAlone call

variable {call call' : Call} {m m' : Memory}

/-- **What a call tells** comes from the cells that it reads. -/
theorem told_perform_congr (h : ∀ op a, call.Reads op a → m.table op a = m'.table op a) :
    (call.perform m).2 = (call.perform m').2 := by
  cases call with
  | read op address quantity out =>
    have hread : m.read op address quantity = m'.read op address quantity :=
      List.map_congr_left fun i hi => h op _ ⟨rfl, i, List.mem_range.mp hi, rfl⟩
    rw [perform, perform, hread]
  | writeSingle kind address value =>
    rw [perform, perform]
    split <;> rfl
  | writeMultiple kind address values =>
    rw [perform, perform]
    split <;> rfl

theorem LeavesAlone.told (h : call.LeavesAlone call') (m : Memory) :
    (call'.perform (call.perform m).1).2 = (call'.perform m).2 := by
  refine told_perform_congr fun op a hreads => ?_
  have hwrites : call.writes op a = none := by
    by_contra hwrites
    exact (h op a hwrites).1 hreads
  rw [table_perform, hwrites]
  rfl

theorem LeavesAlone.state (h : call.LeavesAlone call') (m : Memory) :
    (call'.perform (call.perform m).1).1 = (call.perform (call'.perform m).1).1 := by
  refine Memory.eq_of_table fun op a => ?_
  simp only [table_perform]
  cases hwrites : call.writes op a with
  | none => rfl
  | some v =>
    rw [(h op a (hwrites ▸ Option.some_ne_none v)).2]
    rfl

/-! ### Ranges that do not overlap -/

/-- The cells of the range that a call is about. -/
def Spans (op : ReadOp) (a : UInt16) : Call → Prop
  | read op' address quantity _ =>
    op' = op ∧ address.toNat ≤ a.toNat ∧ a.toNat < address.toNat + quantity.toNat
  | writeSingle kind address _ =>
    kind.readOp = op ∧ address.toNat ≤ a.toNat ∧ a.toNat < address.toNat + 1
  | writeMultiple kind address values =>
    kind.readOp = op ∧ address.toNat ≤ a.toNat ∧ a.toNat < address.toNat + values.length

variable {op : ReadOp} {a address : UInt16}

theorem range_of_cellAt {T : Type} {values : List T} (h : cellAt address a values ≠ none) :
    address.toNat ≤ a.toNat ∧ a.toNat < address.toNat + values.length := by
  unfold cellAt at h
  split at h
  · rename_i hle
    rw [Ne, List.getElem?_eq_none_iff, Nat.not_le] at h
    exact ⟨hle, by omega⟩
  · exact absurd rfl h

theorem range_of_written {kind : WriteKind} {values : List kind.T}
    (h : kind.written address a values op ≠ none) :
    kind.readOp = op ∧ address.toNat ≤ a.toNat ∧ a.toNat < address.toNat + values.length := by
  cases kind with
  | coil =>
    cases op with
    | readCoils => exact ⟨rfl, range_of_cellAt h⟩
    | _ => exact absurd rfl h
  | register =>
    cases op with
    | readHoldingRegisters => exact ⟨rfl, range_of_cellAt h⟩
    | _ => exact absurd rfl h

theorem spans_of_writes (h : call.writes op a ≠ none) : call.Spans op a := by
  cases call with
  | read op' address quantity out => exact absurd rfl h
  | writeSingle kind address value =>
    rw [writes] at h
    split at h
    · exact range_of_written h
    · exact absurd rfl h
  | writeMultiple kind address values =>
    rw [writes] at h
    split at h
    · exact range_of_written h
    · exact absurd rfl h

theorem spans_of_reads (hvalid : call.Valid) (h : call.Reads op a) : call.Spans op a := by
  cases call with
  | read op' address quantity out =>
    obtain ⟨rfl, i, hi, rfl⟩ := h
    have hover := hvalid.2.2.1
    refine ⟨rfl, ?_⟩
    rw [Memory.toNat_add_ofNat (by omega)]
    omega
  | writeSingle kind address value => exact h.elim
  | writeMultiple kind address values => exact h.elim

theorem leavesAlone_of_spans (hvalid' : call'.Valid)
    (h : ∀ op a, call.Spans op a → ¬ call'.Spans op a) : call.LeavesAlone call' := by
  intro op a hwrites
  have hspans := h op a (spans_of_writes hwrites)
  exact ⟨fun hreads => hspans (spans_of_reads hvalid' hreads),
    not_not.mp fun hwrites' => hspans (spans_of_writes hwrites')⟩

/-- **Calls on other tables, or on ranges that do not overlap**, are independent. -/
theorem independent_of_spans (hvalid : call.Valid) (hvalid' : call'.Valid)
    (h : ∀ op a, call.Spans op a → ¬ call'.Spans op a) : call.Independent call' :=
  ⟨leavesAlone_of_spans hvalid' h,
    leavesAlone_of_spans hvalid fun op a hspans' hspans => h op a hspans hspans'⟩

end Call

/-! ### Over a noisy line -/

/-- A call, what becomes of its exchange, and a name to tell it from calls with the same
arguments. -/
structure Exchange (ι : Type) where
  name : ι
  call : Call
  fate : Fate

variable {ι : Type}

def exchange : Object Memory (Exchange ι) (Except Exit Told) := fun m e => e.fate.perform e.call m

def Apart (e e' : Exchange ι) : Prop := e.call.Independent e'.call

theorem told_exchange {e e' : Exchange ι} (h : e.call.LeavesAlone e'.call) (m : Memory) :
    (exchange (exchange m e).1 e').2 = (exchange m e').2 := by
  have htold : (e'.call.perform (exchange m e).1).2 = (e'.call.perform m).2 := by
    unfold exchange Fate.perform
    split
    · exact h.told m
    · rfl
  change (e'.fate.perform e'.call (exchange m e).1).2 = (e'.fate.perform e'.call m).2
  simp only [Fate.perform, htold]

theorem exchange_respects :
    (exchange : Object Memory (Exchange ι) (Except Exit Told)).Respects Apart where
  state m h := by
    simp only [exchange, Fate.perform]
    split
    · split
      · exact h.1.state m
      · rfl
    · rfl
  first m h := told_exchange h.2 m
  second m h := told_exchange h.1 m

theorem runAll_exchange (es : List (Exchange ι)) (hvalid : ∀ e ∈ es, e.call.Valid) (m : Memory) :
    Memory.runAll (es.map Exchange.call) m (es.map Exchange.fate) = exchange.runAll es m := by
  induction es generalizing m with
  | nil => rfl
  | cons e es ih =>
    obtain ⟨he, hes⟩ := List.forall_mem_cons.mp hvalid
    rw [List.map_cons, List.map_cons, Memory.runAll, if_pos he, Object.runAll]
    simp only [List.headD_cons, List.tail_cons, ih hes]
    rfl

/-- **Calls that do not meet may change places.**  Over a noisy line, whatever waits on the socket,
each call is told the same in the other order, where its exchange meets the same fate, and the
memory ends up the same. -/
theorem reorder_independent (client : UdpClient) (hcrc : client.crc.IsReflected) (m : Memory)
    (queue queue' : List Bytes) (es es' : List (Exchange ι)) (hvalid : ∀ e ∈ es, e.call.Valid)
    (hnames : (es.map Exchange.name).Nodup) (h : Reorders Apart es es') :
    let run := Call.runAll client.overNoisy (es.map Exchange.call)
      ⟨m, queue, [], es.map Exchange.fate⟩
    let run' := Call.runAll client.overNoisy (es'.map Exchange.call)
      ⟨m, queue', [], es'.map Exchange.fate⟩
    (∀ (i j : Nat) (name : ι), (es.map Exchange.name)[i]? = some name →
      (es'.map Exchange.name)[j]? = some name →
        ∃ told, run.1[i]? = some told ∧ run'.1[j]? = some told) ∧
    run.2.memory = run'.2.memory := by
  obtain ⟨_, _, hrun⟩ :=
    runAll_overNoisy client hcrc (es.map Exchange.call) m queue (es.map Exchange.fate)
  obtain ⟨_, _, hrun'⟩ :=
    runAll_overNoisy client hcrc (es'.map Exchange.call) m queue' (es'.map Exchange.fate)
  have hvalid' : ∀ e ∈ es', e.call.Valid := fun e he => hvalid e (h.perm.mem_iff.mpr he)
  rw [hrun, hrun', runAll_exchange es hvalid, runAll_exchange es' hvalid']
  refine ⟨fun i j name hi hj => ?_, (h.runAll exchange_respects m).2⟩
  rw [List.getElem?_map, Option.map_eq_some_iff] at hi hj
  obtain ⟨e, hi, rfl⟩ := hi
  obtain ⟨e', hj, hname⟩ := hj
  -- no two exchanges have one name, so this is the same exchange
  have hsame : e' = e := List.inj_on_of_nodup_map hnames
    (h.perm.mem_iff.mpr (List.mem_of_getElem? hj)) (List.mem_of_getElem? hi) hname
  exact h.told exchange_respects hnames.of_map m hi (hsame ▸ hj)

/-- A write of a register, of which the answer is lost. -/
def registerWrite : Exchange Nat := ⟨0, .writeSingle .register 7 (42 : UInt16), .answerLost⟩

def registerRead : Exchange Nat := ⟨1, .read .readHoldingRegisters 7 1 [(0 : UInt16)], .arrives⟩

/-- A write of the coil at the register's address. -/
def coilWrite : Exchange Nat := ⟨2, .writeSingle .coil 7 Coil.kOn, .answerLost⟩

/-- The write of the coil may as well come first. -/
theorem reorder_independent_tables :
    let es := [registerWrite, registerRead, coilWrite]
    let es' := [coilWrite, registerWrite, registerRead]
    let run := Call.runAll (UdpClient.overNoisy ⟨1, bitwiseCrc⟩) (es.map Exchange.call)
      ⟨.blank, [], [], es.map Exchange.fate⟩
    let run' := Call.runAll (UdpClient.overNoisy ⟨1, bitwiseCrc⟩) (es'.map Exchange.call)
      ⟨.blank, [], [], es'.map Exchange.fate⟩
    (∃ told, run.1[0]? = some told ∧ run'.1[1]? = some told) ∧
    (∃ told, run.1[1]? = some told ∧ run'.1[2]? = some told) ∧
    (∃ told, run.1[2]? = some told ∧ run'.1[0]? = some told) ∧
    run.2.memory = run'.2.memory := by
  have hwrite : registerWrite.call.Valid := trivial
  have hread : registerRead.call.Valid := ⟨by decide, by decide, by decide, by decide⟩
  have hcoil : coilWrite.call.Valid := Or.inl rfl
  have hvalid : ∀ e ∈ [registerWrite, registerRead, coilWrite], e.call.Valid :=
    List.forall_mem_cons.mpr ⟨hwrite, List.forall_mem_cons.mpr
      ⟨hread, List.forall_mem_singleton.mpr hcoil⟩⟩
  have hwriteApart : Apart registerWrite coilWrite := by
    refine Call.independent_of_spans hwrite hcoil ?_
    rintro op a ⟨rfl, _⟩ ⟨hop, _⟩
    cases hop
  have hreadApart : Apart registerRead coilWrite := by
    refine Call.independent_of_spans hread hcoil ?_
    rintro op a ⟨rfl, _⟩ ⟨hop, _⟩
    cases hop
  have horder : Reorders Apart [registerWrite, registerRead, coilWrite]
      [coilWrite, registerWrite, registerRead] :=
    .trans (.cons _ (.swap hreadApart [])) (.swap hwriteApart _)
  have hnames : ([registerWrite, registerRead, coilWrite].map Exchange.name).Nodup := by decide
  obtain ⟨htold, hmemory⟩ := reorder_independent ⟨1, bitwiseCrc⟩ isReflected_bitwiseCrc .blank [] []
    _ _ hvalid hnames horder
  exact ⟨htold 0 1 0 rfl rfl, htold 1 2 1 rfl rfl, htold 2 0 2 rfl rfl, hmemory⟩

end Modbus
