import Modbus.Client.Metrics
import Modbus.Library.Readings

/-!
# Dumping and resetting `ClientMetrics`

`DumpMetric` writes the counters out one by one, and `ResetMetric` clears them one by one, both
while calls go on.

* `dump_of_run`: what a dump shows, and how far it can be from what there was at one time.
* `reset_of_run`: what the counters count after a reset.
-/

namespace Modbus

open Counting

def MessageType.toString : MessageType → String
  | .kReadCoils => "read_coils"
  | .kReadDiscreteInputs => "read_discrete_inputs"
  | .kReadHoldingRegisters => "read_holding_registers"
  | .kReadInputRegisters => "read_input_registers"
  | .kWriteSingleCoil => "write_single_coil"
  | .kWriteSingleRegister => "write_single_register"
  | .kWriteMultipleCoils => "write_multiple_coils"
  | .kWriteMultipleRegisters => "write_multiple_registers"

theorem MessageType.mem_all (type : MessageType) : type ∈ all := by
  cases type <;> decide

abbrev Path := List String

namespace ClientMetrics

/-! ### The two functions -/

def dumpMessageMetrics (writer : Path) (metrics : ClientMetrics → MessageMetrics) :
    List (Path × (ClientMetrics → Nat)) :=
  [(writer ++ ["total"], fun m => (metrics m).total),
    (writer ++ ["success"], fun m => (metrics m).success),
    (writer ++ ["errors"], fun m => (metrics m).errors)]

/-- What is written where, in the order of the source. -/
def dumpMetric : List (Path × (ClientMetrics → Nat)) :=
  [(["bytes", "sent"], bytesSent), (["bytes", "received"], bytesReceived),
    (["requests", "total"], requestsTotal), (["requests", "success"], requestsSuccess),
    (["requests", "errors"], requestsErrors)]
  ++ MessageType.all.flatMap fun type =>
    dumpMessageMetrics ["by_type", type.toString] fun m => m.byMessageType type

def resetMessageMetrics (type : MessageType) : List (ClientMetrics → ClientMetrics) :=
  [fun m => m.onType type fun c => { c with total := 0 },
    fun m => m.onType type fun c => { c with success := 0 },
    fun m => m.onType type fun c => { c with errors := 0 }]

/-- What is cleared, in the order of the source. -/
def resetMetric : List (ClientMetrics → ClientMetrics) :=
  [fun m => { m with bytesSent := 0 }, fun m => { m with bytesReceived := 0 },
    fun m => { m with requestsTotal := 0 }, fun m => { m with requestsSuccess := 0 },
    fun m => { m with requestsErrors := 0 }]
  ++ MessageType.all.flatMap resetMessageMetrics

def shown (m : ClientMetrics) : List (Path × Nat) := dumpMetric.map fun e => (e.1, e.2 m)

/-- A dump that starts in the state `s`, while calls go on. -/
def Dumps (s : State ClientMetrics IssuedCall) (out : List (Path × Nat))
    (s' : State ClientMetrics IssuedCall) : Prop :=
  ∃ values, Reads increment IssuedCall.increments s (dumpMetric.map Prod.snd) values s' ∧
    out = (dumpMetric.map Prod.fst).zip values

/-- A reset that starts in the state `s`, while calls go on. -/
def Resets (s s' : State ClientMetrics IssuedCall) : Prop :=
  Clears increment IssuedCall.increments s resetMetric s'

/-! ### All counters -/

theorem forall_dumpMetric {P : Path × (ClientMetrics → Nat) → Prop} :
    (∀ e ∈ dumpMetric, P e) ↔
      P (["bytes", "sent"], bytesSent) ∧ P (["bytes", "received"], bytesReceived) ∧
      P (["requests", "total"], requestsTotal) ∧ P (["requests", "success"], requestsSuccess) ∧
      P (["requests", "errors"], requestsErrors) ∧ ∀ type : MessageType,
        P (["by_type", type.toString, "total"], fun m => (m.byMessageType type).total) ∧
        P (["by_type", type.toString, "success"], fun m => (m.byMessageType type).success) ∧
        P (["by_type", type.toString, "errors"], fun m => (m.byMessageType type).errors) := by
  simp [dumpMetric, dumpMessageMetrics, MessageType.mem_all, or_imp, forall_and]

theorem nodup_paths : (dumpMetric.map Prod.fst).Nodup := by decide

theorem exists_weighs : ∀ e ∈ dumpMetric, ∃ w, Weighs increment e.2 w :=
  forall_dumpMetric.mpr ⟨⟨_, weighs_bytesSent⟩, ⟨_, weighs_bytesReceived⟩,
    ⟨_, weighs_requestsTotal⟩, ⟨_, weighs_requestsSuccess⟩, ⟨_, weighs_requestsErrors⟩,
    fun type => ⟨⟨_, weighs_total type⟩, ⟨_, weighs_success type⟩, ⟨_, weighs_errors type⟩⟩⟩

theorem forall_resetMetric {P : (ClientMetrics → ClientMetrics) → Prop} :
    (∀ clear ∈ resetMetric, P clear) ↔
      P (fun m => { m with bytesSent := 0 }) ∧ P (fun m => { m with bytesReceived := 0 }) ∧
      P (fun m => { m with requestsTotal := 0 }) ∧ P (fun m => { m with requestsSuccess := 0 }) ∧
      P (fun m => { m with requestsErrors := 0 }) ∧ ∀ type : MessageType,
        P (fun m => m.onType type fun c => { c with total := 0 }) ∧
        P (fun m => m.onType type fun c => { c with success := 0 }) ∧
        P (fun m => m.onType type fun c => { c with errors := 0 }) := by
  simp [resetMetric, resetMessageMetrics, MessageType.mem_all, or_imp, forall_and]

/-- No counter of `m` is ahead of the one of `m'`. -/
def AtMost (m m' : ClientMetrics) : Prop := ∀ e ∈ dumpMetric, e.2 m ≤ e.2 m'

theorem AtMost.antisymm {m m' : ClientMetrics} (h : m.AtMost m') (h' : m'.AtMost m) : m = m' := by
  have heq : ∀ e ∈ dumpMetric, e.2 m = e.2 m' := fun e he => Nat.le_antisymm (h e he) (h' e he)
  obtain ⟨hsent, hreceived, htotal, hsuccess, herrors, htype⟩ := forall_dumpMetric.mp heq
  obtain ⟨sent, received, total, success, errors, byType⟩ := m
  obtain ⟨sent', received', total', success', errors', byType'⟩ := m'
  congr 1
  funext type
  obtain ⟨htotal, hsuccess, herrors⟩ := htype type
  show MessageMetrics.mk _ _ _ = MessageMetrics.mk _ _ _
  congr 1

/-- To clear one counter changes no other one. -/
theorem clear_atMost : ∀ clear ∈ resetMetric, ∀ m, AtMost (clear m) m := by
  refine forall_resetMetric.mpr ⟨?_, ?_, ?_, ?_, ?_, fun type => ⟨?_, ?_, ?_⟩⟩
  all_goals
    intro m
    refine forall_dumpMetric.mpr ⟨?_, ?_, ?_, ?_, ?_, fun other => ⟨?_, ?_, ?_⟩⟩
  all_goals
    dsimp only [onType]
    first
      | exact Nat.le_refl _
      | exact Nat.zero_le _
      | split <;> simp

theorem exists_clears : ∀ e ∈ dumpMetric, ∃ clear ∈ resetMetric, ∀ m, e.2 (clear m) = 0 := by
  obtain ⟨hsent, hreceived, htotal, hsuccess, herrors, htype⟩ :=
    forall_resetMetric.mp fun clear (h : clear ∈ resetMetric) => h
  refine forall_dumpMetric.mpr ⟨⟨_, hsent, fun _ => rfl⟩, ⟨_, hreceived, fun _ => rfl⟩,
    ⟨_, htotal, fun _ => rfl⟩, ⟨_, hsuccess, fun _ => rfl⟩, ⟨_, herrors, fun _ => rfl⟩,
    fun type => ⟨⟨_, (htype type).1, fun m => ?_⟩, ⟨_, (htype type).2.1, fun m => ?_⟩,
      ⟨_, (htype type).2.2, fun m => ?_⟩⟩⟩
  all_goals simp [onType]

/-! ### Dumps -/

def valueAt (out : List (Path × Nat)) (path : Path) : Nat := (out.lookup path).getD 0

def ofDump (out : List (Path × Nat)) : ClientMetrics where
  bytesSent := valueAt out ["bytes", "sent"]
  bytesReceived := valueAt out ["bytes", "received"]
  requestsTotal := valueAt out ["requests", "total"]
  requestsSuccess := valueAt out ["requests", "success"]
  requestsErrors := valueAt out ["requests", "errors"]
  byMessageType type :=
    { total := valueAt out ["by_type", type.toString, "total"]
      success := valueAt out ["by_type", type.toString, "success"]
      errors := valueAt out ["by_type", type.toString, "errors"] }

theorem valueAt_ofDump (out : List (Path × Nat)) :
    ∀ e ∈ dumpMetric, e.2 (ofDump out) = valueAt out e.1 :=
  forall_dumpMetric.mpr ⟨rfl, rfl, rfl, rfl, rfl, fun _ => ⟨rfl, rfl, rfl⟩⟩

/-- At each path is the value that was written there. -/
theorem valueAt_zip {paths : List Path} {values : List Nat} (hnodup : paths.Nodup) {i : Nat}
    (hi : i < paths.length) (hi' : i < values.length) :
    valueAt (paths.zip values) paths[i] = values[i] := by
  induction paths generalizing i values with
  | nil => cases hi
  | cons path paths ih =>
    cases values with
    | nil => cases hi'
    | cons value values =>
      obtain ⟨hnot, hnodup⟩ := List.nodup_cons.mp hnodup
      rw [List.zip_cons_cons, valueAt, List.lookup_cons]
      cases i with
      | zero => simp
      | succ i =>
        have hlt : i < paths.length := Nat.lt_of_succ_lt_succ hi
        have hne : (paths[i] == path) = false :=
          beq_eq_false_iff_ne.mpr fun h => hnot (h ▸ List.getElem_mem hlt)
        rw [List.getElem_cons_succ, List.getElem_cons_succ, hne]
        exact ih hnodup hlt (Nat.lt_of_succ_lt_succ hi')

theorem ofDump_zip {values : List Nat} {i : Nat} (hi : i < dumpMetric.length)
    (hi' : i < values.length) :
    dumpMetric[i].2 (ofDump ((dumpMetric.map Prod.fst).zip values)) = values[i] := by
  have hpath := valueAt_zip nodup_paths (List.length_map Prod.fst ▸ hi) hi'
  rw [List.getElem_map] at hpath
  rw [valueAt_ofDump _ _ (List.getElem_mem hi), hpath]

/-- Whatever is read, some metrics would show the same. -/
theorem shown_ofDump {values : List Nat} (hlen : dumpMetric.length = values.length) :
    shown (ofDump ((dumpMetric.map Prod.fst).zip values))
      = (dumpMetric.map Prod.fst).zip values := by
  have hlength : ∀ m : ClientMetrics, m.shown.length = dumpMetric.length :=
    fun _ => List.length_map _
  refine List.ext_getElem ?_ fun i hi hi' => ?_
  · rw [hlength, List.length_zip, List.length_map, hlen, Nat.min_self]
  · have hlt : i < dumpMetric.length := hlength _ ▸ hi
    rw [List.getElem_zip, List.getElem_map, ← ofDump_zip hlt (hlen ▸ hlt)]
    exact List.getElem_map _

/-- `Bounded`, but for what was counted between `before` and `after`. -/
structure BoundedBut (before after m : ClientMetrics) : Prop where
  requests : m.requestsSuccess + m.requestsErrors + before.requestsTotal
    ≤ m.requestsTotal + after.requestsTotal
  byType : ∀ type, (m.byMessageType type).success + (m.byMessageType type).errors
      + (before.byMessageType type).total
    ≤ (m.byMessageType type).total + (after.byMessageType type).total
  total : m.sumOver MessageMetrics.total + before.requestsTotal
    ≤ m.requestsTotal + after.requestsTotal
  success : m.sumOver MessageMetrics.success + before.requestsSuccess
    ≤ m.requestsSuccess + after.requestsSuccess
  errors : m.sumOver MessageMetrics.errors + before.requestsErrors
    ≤ m.requestsErrors + after.requestsErrors

theorem sumOver_le {m m' : ClientMetrics} (count : MessageMetrics → Nat)
    (h : ∀ type, count (m.byMessageType type) ≤ count (m'.byMessageType type)) :
    m.sumOver count ≤ m'.sumOver count :=
  List.sum_le_sum fun type _ => h type

theorem boundedBut_of_atMost {before m after : ClientMetrics} (h : before.AtMost m)
    (h' : m.AtMost after) (hafter : after.Bounded) : BoundedBut before after m := by
  obtain ⟨_, _, htotal, hsuccess, herrors, htype⟩ := forall_dumpMetric.mp h
  obtain ⟨_, _, htotal', hsuccess', herrors', htype'⟩ := forall_dumpMetric.mp h'
  have hrequests := hafter.requests
  have hbyType := hafter.byType
  have hsumTotal := sumOver_le MessageMetrics.total fun type => (htype' type).1
  have hsumSuccess := sumOver_le MessageMetrics.success fun type => (htype' type).2.1
  have hsumErrors := sumOver_le MessageMetrics.errors fun type => (htype' type).2.2
  have htotals := hafter.total
  have hsuccesses := hafter.success
  have herrorss := hafter.errors
  dsimp only at *
  refine ⟨by omega, fun type => ?_, by omega, by omega, by omega⟩
  have hone := htype type
  have hone' := htype' type
  have hall := hbyType type
  omega

variable {s s' s'' : State ClientMetrics IssuedCall} {out : List (Path × Nat)}

theorem Dumps.goes (h : Dumps s out s') : Goes increment IssuedCall.increments s s' := by
  obtain ⟨_, hreads, _⟩ := h
  exact hreads.goes

/-- What a dump shows lies between the beginning and the end. -/
theorem Dumps.between (h : Dumps s out s') : ∃ m, out = shown m ∧ s.counters.AtMost m ∧
    m.AtMost s'.counters := by
  obtain ⟨values, hreads, rfl⟩ := h
  have hforall := hreads.between (fun count hmem => by
    obtain ⟨e, he, rfl⟩ := List.mem_map.mp hmem
    exact exists_weighs e he) .refl
  rw [List.forall₂_map_left_iff] at hforall
  have hlen := hforall.length_eq
  refine ⟨_, (shown_ofDump hlen).symm, fun e he => ?_, fun e he => ?_⟩
  all_goals
    obtain ⟨i, hi, rfl⟩ := List.getElem_of_mem he
    rw [ofDump_zip hi (hlen ▸ hi)]
  · exact (hforall.get hi (hlen ▸ hi)).1
  · exact (hforall.get hi (hlen ▸ hi)).2

/-- **What a dump shows.**  Its paths are all different.  Each value is one that its counter had
while it was dumped, so the counters may be from different times, and those that count ends be
ahead of those that count starts; but by no more than was counted meanwhile.  With no call in
progress the books that it shows are balanced.  Counters do not wrap here. -/
theorem dump_of_run (hrun : Reached s) (hdump : Dumps s out s') :
    (out.map Prod.fst).Nodup ∧ ∃ m, out = shown m ∧ s.counters.AtMost m ∧ m.AtMost s'.counters ∧
      BoundedBut s.counters s'.counters m ∧
      (Quiescent IssuedCall.increments s.threads → s'.threads.length = s.threads.length →
        m.Balanced ∧ m.Accounts (s.threads.map Thread.origin)) := by
  obtain ⟨m, rfl, hbefore, hafter⟩ := hdump.between
  have hgoes := hdump.goes
  refine ⟨?_, m, rfl, hbefore, hafter,
    boundedBut_of_atMost hbefore hafter (bounded_of_run (Goes.trans hrun hgoes)), fun hq hlen => ?_⟩
  · rw [shown, List.map_map]
    exact nodup_paths
  · obtain rfl := hgoes.eq_of_quiescent hq hlen
    obtain rfl := hafter.antisymm hbefore
    exact ⟨balanced_of_quiescent hrun hq, accounts_of_quiescent hrun hq⟩

/-- A dump during which calls go on once, after `k` readings. -/
theorem dumps_torn (k : Nat) (h : Goes increment IssuedCall.increments s s') :
    Dumps s ((dumpMetric.map Prod.fst).zip ((dumpMetric.take k).map (fun e => e.2 s.counters)
      ++ (dumpMetric.drop k).map fun e => e.2 s'.counters)) s' := by
  refine ⟨_, ?_, rfl⟩
  have hbefore := Reads.at_once increment IssuedCall.increments s
    ((dumpMetric.take k).map Prod.snd)
  have hafter := (Reads.at_once increment IssuedCall.increments s'
    ((dumpMetric.drop k).map Prod.snd)).of_goes h
  have hreads := hbefore.append hafter
  rwa [← List.map_append, List.take_append_drop, List.map_map, List.map_map] at hreads

def oneWrite (k : Nat) : List (Event IssuedCall) :=
  .start ⟨.writeSingle .register 1 7, .answering [0x06, 0, 1, 0, 7]⟩
    :: List.replicate 6 (.advance k)

theorem oneWrite_isSome : (Machine.exec (step increment IssuedCall.increments) (fun _ _ => True)
    ⟨zero, []⟩ (oneWrite 0)).isSome := by decide +kernel

def wrote : State ClientMetrics IssuedCall :=
  (Machine.exec (step increment IssuedCall.increments) (fun _ _ => True) ⟨zero, []⟩
    (oneWrite 0)).get oneWrite_isSome

theorem goes_wrote : Goes increment IssuedCall.increments ⟨zero, []⟩ wrote :=
  Machine.Run.of_isSome oneWrite_isSome

/-- A write falls between the readings of `requests.total` and `requests.success`. -/
theorem dump_of_run_torn : ∃ out, Dumps ⟨zero, []⟩ out wrote ∧
    valueAt out ["requests", "total"] = 0 ∧ valueAt out ["requests", "success"] = 1 ∧
    ∃ m, out = shown m ∧ BoundedBut zero wrote.counters m := by
  obtain ⟨_, m, hout, _, _, hbounded, _⟩ := dump_of_run .refl (dumps_torn 3 goes_wrote)
  exact ⟨_, dumps_torn 3 goes_wrote, by decide +kernel, by decide +kernel, m, hout, hbounded⟩

/-! ### Resets -/

theorem foldl_resetMetric (m : ClientMetrics) :
    resetMetric.foldl (fun m clear => clear m) m = zero := by
  refine AtMost.antisymm (forall_dumpMetric.mpr ⟨Nat.le_refl _, Nat.le_refl _, Nat.le_refl _,
    Nat.le_refl _, Nat.le_refl _, fun type => ?_⟩) ?_
  · cases type <;> exact ⟨Nat.le_refl _, Nat.le_refl _, Nat.le_refl _⟩
  · exact forall_dumpMetric.mpr ⟨Nat.zero_le _, Nat.zero_le _, Nat.zero_le _, Nat.zero_le _,
      Nat.zero_le _, fun _ => ⟨Nat.zero_le _, Nat.zero_le _, Nat.zero_le _⟩⟩

/-- **What a reset leaves.**  A counter counts what calls do after the reset, and nothing of what
they did before it; and after a reset with no call in progress the books are kept as if the calls
before it had never been.  Counters do not wrap here. -/
theorem reset_of_run (hreset : Resets s s')
    (hgo : Goes increment IssuedCall.increments s' s'') :
    (∀ e ∈ dumpMetric, ∃ w, Weighs increment e.2 w ∧
      e.2 s''.counters + tally IssuedCall.increments w s.threads
        ≤ tally IssuedCall.increments w s''.threads ∧
      tally IssuedCall.increments w s''.threads
        ≤ e.2 s''.counters + tally IssuedCall.increments w s'.threads) ∧
    (Quiescent IssuedCall.increments s.threads → s'.threads.length = s.threads.length →
      ∃ later, s''.threads = s.threads ++ later ∧ s''.counters.Bounded ∧
        (Quiescent IssuedCall.increments s''.threads →
          s''.counters.Balanced ∧ s''.counters.Accounts (later.map Thread.origin))) := by
  refine ⟨fun e he => ?_, fun hq hlen => ?_⟩
  · obtain ⟨w, hw⟩ := exists_weighs e he
    have hcleared := Clears.count_le hw hreset (exists_clears e he)
      (fun clear hmem m => clear_atMost clear hmem m e he)
    have hcounted := hgo.count_add_tally hw
    exact ⟨w, hw, by omega, by omega⟩
  · obtain rfl := Clears.eq_of_quiescent hq hreset hlen
    obtain ⟨later, hthreads, hlater⟩ := hgo.fresh (by exact hq)
    rw [foldl_resetMetric] at hlater
    have hreached : Reached ⟨s''.counters, later⟩ := hlater
    have hbounded := bounded_of_run hreached
    refine ⟨later, hthreads, hbounded, fun hquiet => ?_⟩
    have hq' : Quiescent IssuedCall.increments later :=
      fun thread hmem => hquiet thread (hthreads ▸ List.mem_append_right _ hmem)
    have hbalanced := balanced_of_quiescent hreached hq'
    have haccounts := accounts_of_quiescent hreached hq'
    exact ⟨hbalanced, haccounts⟩

theorem oneWrite_isSome_reset : (Machine.exec (step increment IssuedCall.increments)
    (fun _ _ => True) ⟨zero, wrote.threads⟩ (oneWrite 1)).isSome := by decide +kernel

/-- A write, a reset, and another write. -/
theorem reset_of_run_write : ∃ s : State ClientMetrics IssuedCall, s.threads.length = 2 ∧
    s.counters.requestsTotal = 1 ∧ s.counters.Balanced := by
  have hreset : Resets wrote ⟨zero, wrote.threads⟩ :=
    foldl_resetMetric wrote.counters ▸ Clears.at_once wrote resetMetric
  have hgo : Goes increment IssuedCall.increments ⟨zero, wrote.threads⟩ _ :=
    Machine.Run.of_isSome oneWrite_isSome_reset
  obtain ⟨_, hbooks⟩ := reset_of_run hreset hgo
  have hq : Quiescent IssuedCall.increments wrote.threads := by
    unfold Quiescent
    decide +kernel
  obtain ⟨later, _, _, hbalanced⟩ := hbooks hq (by dsimp only)
  exact ⟨_, by decide +kernel, by decide +kernel,
    (hbalanced (by unfold Quiescent; decide +kernel)).1⟩

end ClientMetrics

end Modbus
