import Modbus.Remote.Operations
import Modbus.Udp.EndToEnd

/-!
# Ranges in pieces

A message has room for a limited number of values, so a long range is written, and read, in
pieces.  Over a line without losses it does not matter which: values one by one, as many as a
message takes, or anything between.

* `told_lossFree`: one call.
* `runAll_writePieces`, `runAll_readPieces`: the pieces come to one write, and one read, of the
  whole.
* `read_back_in_pieces`: what is written in pieces is read back in any others.
-/

namespace Modbus

open Span Transport UdpClient

/-! ### One call -/

/-- **A call over a line without losses** tells what its operation says, and performs it. -/
theorem told_lossFree (client : UdpClient) {call : Call} {req : Bytes} (h : call.Sends req)
    (m : Memory) (queue : List Bytes) :
    call.told client.overLossFree ⟨m, queue⟩ = .ok (call.perform m).2 ∧
      call.transportState client.overLossFree ⟨m, queue⟩ = ⟨(call.perform m).1, []⟩ := by
  obtain ⟨pdu, hrespond, hpdu, htold⟩ := Call.exists_respond h m
  have hreq := Call.length_le_of_sends h
  have hsend := client.send_lossFree hrespond (Nat.not_lt.mpr hreq) (Nat.not_lt.mpr hpdu) queue
  refine ⟨htold _ _ ?_, ?_⟩
  · rw [reply, hsend]
    exact congrArg some List.take_left
  · rw [Call.transportState_of_sends h, hsend]

/-! ### The memory -/

theorem overwrite_nil {T : Type} (table : UInt16 → T) (a : UInt16) :
    overwrite table a [] = table := by
  funext b
  unfold overwrite
  split <;> rfl

/-- To write on where a write ends is to write more. -/
theorem overwrite_append {T : Type} (table : UInt16 → T) {a : UInt16} {v w : List T}
    (h : a.toNat + (v ++ w).length ≤ 0x10000) :
    overwrite (overwrite table a v) (a + UInt16.ofNat v.length) w = overwrite table a (v ++ w) := by
  by_cases hw : w = []
  · -- the address may have gone round, but nothing is written there
    rw [hw, overwrite_nil, List.append_nil]
  have hpos := List.length_pos_iff.mpr hw
  rw [List.length_append] at h
  have hnat := Memory.toNat_add_ofNat (by omega : a.toNat + v.length < 0x10000)
  funext b
  unfold overwrite
  rw [hnat]
  by_cases hv : a.toNat + v.length ≤ b.toNat
  · rw [if_pos hv, if_pos (by omega), if_pos (by omega), List.getD_append_right _ _ _ _ (by omega),
      List.getD_eq_default v _ (by omega), Nat.sub_add_eq]
  · rw [if_neg hv]
    split
    · rw [List.getD_append _ _ _ _ (by omega)]
    · rfl

theorem toNat_next_le {a : UInt16} {n k : Nat} (h : a.toNat + (n + k) ≤ 0x10000) :
    (a + UInt16.ofNat n).toNat + k ≤ 0x10000 := by
  have hle : (a + UInt16.ofNat n).toNat ≤ a.toNat + n := by
    rw [UInt16.toNat_add, UInt16.toNat_ofNat']
    exact (Nat.mod_le _ _).trans (Nat.add_le_add_left (Nat.mod_le _ _) _)
  omega

namespace Memory

variable {kind : WriteKind}

theorem write_nil (m : Memory) (a : UInt16) (h : ∀ val ∈ ([] : List kind.T), kind.Accepts val) :
    m.write kind a [] h = m := by
  cases kind with
  | coil => simp only [write, overwrite_nil]
  | register => simp only [write, overwrite_nil]

theorem write_append (m : Memory) {a : UInt16} {v w : List kind.T}
    (hv : ∀ val ∈ v, kind.Accepts val) (hw : ∀ val ∈ w, kind.Accepts val)
    (hvw : ∀ val ∈ v ++ w, kind.Accepts val) (h : a.toNat + (v ++ w).length ≤ 0x10000) :
    (m.write kind a v hv).write kind (a + UInt16.ofNat v.length) w hw
      = m.write kind a (v ++ w) hvw := by
  cases kind with
  | coil => simp only [write, overwrite_append m.coils h]
  | register => simp only [write, overwrite_append m.holdingRegisters h]

end Memory

/-! ### Writing -/

namespace UdpClient.WriteOp

variable {kind : WriteKind}

def call (address : UInt16) : WriteOp kind → Call
  | single value => .writeSingle kind address value
  | multiple values => .writeMultiple kind address values

/-- A message has room for the values, and they can be written. -/
def Fits (op : WriteOp kind) : Prop :=
  (∀ val ∈ op.values, kind.Accepts val) ∧
    match op with
    | single _ => True
    | multiple values => 1 ≤ values.length ∧ values.length ≤ kind.maxQuantity.toNat

theorem Fits.valid {op : WriteOp kind} (h : op.Fits) {address : UInt16}
    (hroom : address.toNat + op.values.length ≤ 0x10000) : (op.call address).Valid := by
  cases op with
  | single value => exact h.1 value (List.mem_singleton_self value)
  | multiple values => exact ⟨h.2.1, h.2.2, hroom, h.1⟩

theorem Fits.perform {op : WriteOp kind} (h : op.Fits) (address : UInt16) (m : Memory) :
    (op.call address).perform m = (m.write kind address op.values h.1, .written) := by
  cases op with
  | single value => exact Call.perform_writeSingle (List.forall_mem_singleton.mp h.1) m
  | multiple values => exact Call.perform_writeMultiple h.1 m

end UdpClient.WriteOp

open WriteOp

def writePieces {kind : WriteKind} : UInt16 → List (WriteOp kind) → List Call
  | _, [] => []
  | address, op :: ops =>
    op.call address :: writePieces (address + UInt16.ofNat op.values.length) ops

def allValues {kind : WriteKind} (ops : List (WriteOp kind)) : List kind.T := ops.flatMap values

theorem allValues_accepted {kind : WriteKind} {ops : List (WriteOp kind)}
    (h : ∀ op ∈ ops, op.Fits) : ∀ val ∈ allValues ops, kind.Accepts val := by
  intro val hval
  obtain ⟨op, hop, hval⟩ := List.mem_flatMap.mp hval
  exact (h op hop).1 val hval

theorem allValues_cons {kind : WriteKind} (op : WriteOp kind) (ops : List (WriteOp kind)) :
    allValues (op :: ops) = op.values ++ allValues ops := List.flatMap_cons ..

/-- **Writing in pieces** is writing the whole. -/
theorem runAll_writePieces (client : UdpClient) {kind : WriteKind} {ops : List (WriteOp kind)}
    (hfits : ∀ op ∈ ops, op.Fits) {address : UInt16}
    (hroom : address.toNat + (allValues ops).length ≤ 0x10000) (m : Memory) (queue : List Bytes) :
    ∃ queue', Call.runAll client.overLossFree (writePieces address ops) ⟨m, queue⟩
      = (ops.map fun _ => .ok .written,
        ⟨m.write kind address (allValues ops) (allValues_accepted hfits), queue'⟩) := by
  induction ops generalizing address m queue with
  | nil => exact ⟨queue, congrArg (fun m => ([], World.mk m queue)) (m.write_nil _ _).symm⟩
  | cons op ops ih =>
    obtain ⟨hop, hrest⟩ := List.forall_mem_cons.mp hfits
    rw [allValues_cons, List.length_append] at hroom
    have hvalid : (op.call address).Valid := hop.valid (by omega)
    obtain ⟨req, hsends⟩ := Call.exists_sends.mpr hvalid
    obtain ⟨htold, hstate⟩ := told_lossFree client hsends m queue
    rw [hop.perform] at htold hstate
    obtain ⟨queue', hrun⟩ := ih hrest (toNat_next_le hroom)
      (m.write kind address op.values hop.1) []
    refine ⟨queue', ?_⟩
    rw [writePieces, Call.runAll, htold, hstate, hrun]
    have hmemory := m.write_append hop.1 (allValues_accepted hrest)
      (allValues_cons op ops ▸ allValues_accepted hfits) (by rwa [List.length_append])
    simp only [hmemory, allValues_cons, List.map_cons]

/-! ### Reading -/

/-- Reads one behind the other, each into a buffer that it fills. -/
def readPieces (op : ReadOp) : UInt16 → List (List op.T) → List Call
  | _, [] => []
  | address, out :: outs =>
    .read op address (UInt16.ofNat out.length) out
      :: readPieces op (address + UInt16.ofNat out.length) outs

/-- `n` cells from `address` on. -/
def Memory.cells (m : Memory) (op : ReadOp) (address : UInt16) (n : Nat) : List op.T :=
  (List.range n).map fun i => m.table op (address + UInt16.ofNat i)

theorem Memory.cells_add (m : Memory) (op : ReadOp) (address : UInt16) (n k : Nat) :
    m.cells op address (n + k)
      = m.cells op address n ++ m.cells op (address + UInt16.ofNat n) k := by
  rw [cells, List.range_add, List.map_append, List.map_map]
  refine congrArg (_ ++ ·) (List.map_congr_left fun i _ => ?_)
  rw [Function.comp_apply, UInt16.ofNat_add, UInt16.add_assoc]

/-- A read has room for the elements of the buffer. -/
def ReadOp.Fits (op : ReadOp) (out : List op.T) : Prop :=
  1 ≤ out.length ∧ out.length ≤ op.maxQuantity.toNat

theorem ReadOp.Fits.toNat_length {op : ReadOp} {out : List op.T} (h : op.Fits out) :
    (UInt16.ofNat out.length).toNat = out.length := by
  have hmax := op.maxQuantity.toNat_lt
  rw [UInt16.toNat_ofNat']
  exact Nat.mod_eq_of_lt (h.2.trans_lt hmax)

/-- **Reading in pieces** is reading the whole. -/
theorem runAll_readPieces (client : UdpClient) {op : ReadOp} {outs : List (List op.T)}
    (hfits : ∀ out ∈ outs, op.Fits out) {address : UInt16}
    (hroom : address.toNat + outs.flatten.length ≤ 0x10000) (m : Memory) (queue : List Bytes) :
    ∃ (slices : List (List op.T)) (queue' : List Bytes),
      Call.runAll client.overLossFree (readPieces op address outs) ⟨m, queue⟩
        = (slices.map fun cells => .ok (.read op ⟨cells, []⟩), ⟨m, queue'⟩) ∧
      slices.map List.length = outs.map List.length ∧
      slices.flatten = m.cells op address outs.flatten.length := by
  induction outs generalizing address queue with
  | nil => exact ⟨[], queue, rfl, rfl, rfl⟩
  | cons out outs ih =>
    obtain ⟨hout, hrest⟩ := List.forall_mem_cons.mp hfits
    rw [List.flatten_cons, List.length_append] at hroom
    have hcount := hout.toNat_length
    have hvalid : (Call.read op address (UInt16.ofNat out.length) out).Valid :=
      ⟨by rw [hcount]; exact hout.1, by rw [hcount]; exact hout.2, by rw [hcount]; omega, hcount.le⟩
    obtain ⟨req, hsends⟩ := Call.exists_sends.mpr hvalid
    obtain ⟨htold, hstate⟩ := told_lossFree client hsends m queue
    obtain ⟨slices, queue', hrun, hlengths, hcells⟩ := ih hrest (toNat_next_le hroom) []
    have hread : m.read op address (UInt16.ofNat out.length) = m.cells op address out.length := by
      rw [Memory.read, hcount]
      rfl
    refine ⟨m.cells op address out.length :: slices, queue', ?_, ?_, ?_⟩
    · rw [readPieces, Call.runAll, htold, hstate]
      simp only [Call.perform, hrun, hread, hcount, List.drop_length, List.append_nil,
        List.map_cons]
    · rw [List.map_cons, List.map_cons, hlengths, Memory.cells, List.length_map, List.length_range]
    · rw [List.flatten_cons, hcells, List.flatten_cons, List.length_append, m.cells_add]

/-! ### Both -/

theorem runAll_append {σ : Type} (t : Transport σ) (calls calls' : List Call) (s : σ) :
    Call.runAll t (calls ++ calls') s
      = ((Call.runAll t calls s).1 ++ (Call.runAll t calls' (Call.runAll t calls s).2).1,
        (Call.runAll t calls' (Call.runAll t calls s).2).2) := by
  induction calls generalizing s with
  | nil => rfl
  | cons call calls ih => rw [List.cons_append, Call.runAll, ih]; rfl

theorem cells_write (m : Memory) {kind : WriteKind} {address : UInt16} {vals : List kind.T}
    (h : ∀ val ∈ vals, kind.Accepts val) (hroom : address.toNat + vals.length ≤ 0x10000) :
    (m.write kind address vals h).cells kind.readOp address vals.length
      = vals.map kind.toRead := by
  obtain ⟨hwritten, _⟩ := m.writtenOnly_write h hroom
  refine List.ext_getElem (by simp [Memory.cells]) (fun i hi _ => ?_)
  have hlt : i < vals.length := by simpa [Memory.cells] using hi
  have hcell : (m.write kind address vals h).table kind.readOp (address + UInt16.ofNat i)
      = kind.toRead vals[i] := hwritten i hlt
  rw [List.getElem_map, ← hcell]
  simp only [Memory.cells, List.getElem_map, List.getElem_range]

/-- **Ranges in pieces.**  Over a line without losses, whatever the memory holds and whatever waits
on the socket: values that are written in pieces are written as a whole, and read back whole in any
other pieces; and cells that are read in pieces are the cells of the memory. -/
theorem read_back_in_pieces (client : UdpClient) (m : Memory) (queue : List Bytes)
    (address : UInt16) :
    (∀ (kind : WriteKind) (ops : List (WriteOp kind)) (outs : List (List kind.readOp.T)),
      (∀ op ∈ ops, op.Fits) → (∀ out ∈ outs, kind.readOp.Fits out) →
      outs.flatten.length = (allValues ops).length →
      address.toNat + (allValues ops).length ≤ 0x10000 →
      ∃ (slices : List (List kind.readOp.T)) (s : World),
        Call.runAll client.overLossFree
            (writePieces address ops ++ readPieces kind.readOp address outs) ⟨m, queue⟩
          = ((ops.map fun _ => .ok .written)
            ++ slices.map (fun cells => .ok (.read kind.readOp ⟨cells, []⟩)), s) ∧
        slices.map List.length = outs.map List.length ∧
        slices.flatten = (allValues ops).map kind.toRead ∧
        Memory.WrittenOnly m s.memory kind address (allValues ops)) ∧
    ∀ (op : ReadOp) (outs : List (List op.T)), (∀ out ∈ outs, op.Fits out) →
      address.toNat + outs.flatten.length ≤ 0x10000 →
      ∃ (slices : List (List op.T)) (s : World),
        Call.runAll client.overLossFree (readPieces op address outs) ⟨m, queue⟩
          = (slices.map fun cells => .ok (.read op ⟨cells, []⟩), s) ∧
        slices.map List.length = outs.map List.length ∧
        slices.flatten = m.cells op address outs.flatten.length ∧ s.memory = m := by
  refine ⟨fun kind ops outs hops houts hlen hroom => ?_, fun op outs houts hroom => ?_⟩
  · obtain ⟨queue', hwrites⟩ := runAll_writePieces client hops hroom m queue
    obtain ⟨slices, queue'', hreads, hlengths, hcells⟩ := runAll_readPieces client houts
      (hlen ▸ hroom) (m.write kind address (allValues ops) (allValues_accepted hops)) queue'
    refine ⟨slices, ⟨m.write kind address (allValues ops) (allValues_accepted hops), queue''⟩, ?_,
      hlengths, ?_, m.writtenOnly_write _ hroom⟩
    · rw [runAll_append, hwrites, hreads]
    · rw [hcells, hlen]
      exact cells_write m _ hroom
  · obtain ⟨slices, queue', hreads, hlengths, hcells⟩ :=
      runAll_readPieces client houts hroom m queue
    exact ⟨slices, _, hreads, hlengths, hcells, rfl⟩

end Modbus
