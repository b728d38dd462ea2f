import Modbus.Library.Machine
import Modbus.Udp.Client

/-!
# Calls of one client on a network

Any number of `SendRawRequest` calls on one socket, a device, and the datagrams under
way between them.  Every socket operation is one step, and so is everything the network
and the device do: a datagram on its way can be delivered or lost, in any order.  Calls
are numbered as they start.  A request is tagged with the number of its call, an answer
with that of the request it answers; a frame holds no such number, and no code sees it.

* `step_cases`: what a step does.
* `Authentic`, `Once`: what a call returns is in some answer of the device, and every
  request is sent once and answered at most once.
* `fresh_of_took_own`: a call that takes the answer to its own request returns it.
-/

namespace Modbus

namespace UdpClient

open Phase

/-! ### The network -/

/-- The tag is the number of a call. -/
structure Datagram where
  tag : Nat
  bytes : Bytes

/-- `took` is the tag of the datagram that `RecvSome` has taken. -/
structure RunningCall where
  phase : Phase
  took : Option Nat

/-- The calls, the datagrams to the device and from it, and those that have arrived at
the socket, in order.  The rest is history: what the device has answered to whom, who
has sent, and which call has taken which datagram. -/
structure Net where
  calls : List RunningCall
  toDevice : List Datagram
  toClient : List Datagram
  queue : List Datagram
  answers : List (Nat × Bytes)
  sent : List Nat
  taken : List (Nat × Nat)

def Net.init : Net := ⟨[], [], [], [], [], [], []⟩

inductive Event
  /-- A call is made. -/
  | start (requestPdu responsePduOut : Bytes)
  | recvNoblock (k : Nat)
  | sendAllTo (k : Nat)
  | recvSome (k : Nat)
  /-- The next operation of call `k` ends in `IoTimeout`, or in `IoException`. -/
  | throws (k : Nat) (timeout : Bool)
  /-- The device takes a request and answers it. -/
  | answer (i : Nat) (pdu : Bytes)
  | loseRequest (i : Nat)
  | deliver (i : Nat)
  | loseAnswer (i : Nat)

/-- What a call goes on with when its next operation throws. -/
def onThrown (client : UdpClient) (timeout : Bool) : Phase → Option Phase
  | .recvNoblock requestPdu out => some (client.onRecvNoblock requestPdu out thrown)
  | .sendAllTo requestAdu out => some (onSendAllTo requestAdu out thrown)
  | .recvSome out => some (client.onRecvSome out thrown)
  | .done _ _ => none
where
  thrown {α : Type} : IoResult α := if timeout then .ioTimeout else .ioException

def Net.proceed (s : Net) (k : Nat) (phase : Phase) (took : Option Nat) : Net :=
  { s with calls := s.calls.set k ⟨phase, took⟩ }

def step (client : UdpClient) (s : Net) : Event → Option Net
  | .start requestPdu responsePduOut =>
    some { s with calls := s.calls ++ [⟨UdpClient.start requestPdu responsePduOut, none⟩] }
  | .recvNoblock k =>
    match s.calls[k]?, s.queue with
    | some ⟨.recvNoblock requestPdu out, took⟩, [] =>
      some (s.proceed k (client.onRecvNoblock requestPdu out (.ok none)) took)
    | some ⟨.recvNoblock requestPdu out, took⟩, d :: queue =>
      some { s.proceed k (client.onRecvNoblock requestPdu out
          (.ok (some (d.bytes.take RtuFrame.kMaxFrameSize)))) took with
        queue := queue
        taken := s.taken ++ [(k, d.tag)] }
    | _, _ => none
  | .sendAllTo k =>
    match s.calls[k]? with
    | some ⟨.sendAllTo requestAdu out, took⟩ =>
      some { s.proceed k (onSendAllTo requestAdu out (.ok requestAdu.length)) took with
        toDevice := s.toDevice ++ [⟨k, requestAdu⟩]
        sent := s.sent ++ [k] }
    | _ => none
  | .recvSome k =>
    match s.calls[k]?, s.queue with
    | some ⟨.recvSome out, _⟩, d :: queue =>
      some { s.proceed k (client.onRecvSome out (.ok (d.bytes.take RtuFrame.kMaxFrameSize)))
          (some d.tag) with
        queue := queue
        taken := s.taken ++ [(k, d.tag)] }
    | _, _ => none
  | .throws k timeout =>
    match s.calls[k]? with
    | some ⟨phase, took⟩ =>
      (client.onThrown timeout phase).map fun phase' => s.proceed k phase' took
    | none => none
  | .answer i pdu =>
    match s.toDevice[i]?, RtuFrame.create client.slaveId pdu with
    | some d, .ok frame =>
      some { s with
        toDevice := s.toDevice.eraseIdx i
        toClient := s.toClient ++ [⟨d.tag, RtuFrame.encode client.crc frame⟩]
        answers := s.answers ++ [(d.tag, pdu)] }
    | _, _ => none
  | .loseRequest i => some { s with toDevice := s.toDevice.eraseIdx i }
  | .deliver i =>
    match s.toClient[i]? with
    | some d => some { s with toClient := s.toClient.eraseIdx i, queue := s.queue ++ [d] }
    | none => none
  | .loseAnswer i => some { s with toClient := s.toClient.eraseIdx i }

/-! ### What a step does -/

variable {client : UdpClient} {s s' : Net} {e : Event}

/-- The steps, each with the condition under which it is possible. -/
inductive Transition (client : UdpClient) (s : Net) : Event → Net → Prop
  | start (requestPdu out : Bytes) : Transition client s (.start requestPdu out)
      { s with calls := s.calls ++ [⟨UdpClient.start requestPdu out, none⟩] }
  | drained {k : Nat} {requestPdu out : Bytes} {took : Option Nat}
      (hk : s.calls[k]? = some ⟨.recvNoblock requestPdu out, took⟩) (hq : s.queue = []) :
      Transition client s (.recvNoblock k) (s.proceed k (client.onDrained requestPdu out) took)
  | drains {k : Nat} {requestPdu out : Bytes} {took : Option Nat} {d : Datagram}
      {queue : List Datagram}
      (hk : s.calls[k]? = some ⟨.recvNoblock requestPdu out, took⟩) (hq : s.queue = d :: queue) :
      Transition client s (.recvNoblock k)
        { s.proceed k (.recvNoblock requestPdu out) took with
          queue := queue, taken := s.taken ++ [(k, d.tag)] }
  | sends {k : Nat} {requestAdu out : Bytes} {took : Option Nat}
      (hk : s.calls[k]? = some ⟨.sendAllTo requestAdu out, took⟩) :
      Transition client s (.sendAllTo k)
        { s.proceed k (.recvSome out) took with
          toDevice := s.toDevice ++ [⟨k, requestAdu⟩], sent := s.sent ++ [k] }
  | receives {k : Nat} {out : Bytes} {took : Option Nat} {d : Datagram} {queue : List Datagram}
      (hk : s.calls[k]? = some ⟨.recvSome out, took⟩) (hq : s.queue = d :: queue) :
      Transition client s (.recvSome k)
        { s.proceed k (client.onResponse out (d.bytes.take RtuFrame.kMaxFrameSize))
            (some d.tag) with
          queue := queue, taken := s.taken ++ [(k, d.tag)] }
  | throws {k : Nat} {timeout : Bool} {phase : Phase} {took : Option Nat} {outcome : Outcome}
      {out : Bytes} (hk : s.calls[k]? = some ⟨phase, took⟩) (hphase : ¬ phase.IsDone)
      (hfailed : (Phase.done outcome out).returned = none) :
      Transition client s (.throws k timeout) (s.proceed k (.done outcome out) took)
  | answers {i : Nat} {d : Datagram} (frame : RtuFrame) (hi : s.toDevice[i]? = some d)
      (hframe : frame.slaveId = client.slaveId) :
      Transition client s (.answer i frame.pdu)
        { s with
          toDevice := s.toDevice.eraseIdx i
          toClient := s.toClient ++ [⟨d.tag, RtuFrame.encode client.crc frame⟩]
          answers := s.answers ++ [(d.tag, frame.pdu)] }
  | losesRequest (i : Nat) : Transition client s (.loseRequest i)
      { s with toDevice := s.toDevice.eraseIdx i }
  | delivers {i : Nat} {d : Datagram} (hi : s.toClient[i]? = some d) :
      Transition client s (.deliver i)
        { s with toClient := s.toClient.eraseIdx i, queue := s.queue ++ [d] }
  | losesAnswer (i : Nat) : Transition client s (.loseAnswer i)
      { s with toClient := s.toClient.eraseIdx i }

theorem onThrown_eq_some {timeout : Bool} {phase phase' : Phase}
    (h : client.onThrown timeout phase = some phase') : ¬ phase.IsDone ∧
      ∃ outcome out, phase' = .done outcome out ∧ (Phase.done outcome out).returned = none := by
  cases phase with
  | recvNoblock requestPdu out =>
    rw [onThrown, onThrown.thrown, Option.some.injEq] at h
    subst h
    cases timeout with
    | true => exact ⟨id, .threw, out, rfl, rfl⟩
    | false => exact ⟨id, .threw, out, rfl, rfl⟩
  | sendAllTo requestAdu out =>
    rw [onThrown, onThrown.thrown, Option.some.injEq] at h
    subst h
    cases timeout with
    | true => exact ⟨id, .returned (.error .kTimeout), out, rfl, rfl⟩
    | false => exact ⟨id, .returned (.error .kTransportError), out, rfl, rfl⟩
  | recvSome out =>
    rw [onThrown, onThrown.thrown, Option.some.injEq] at h
    subst h
    cases timeout with
    | true => exact ⟨id, .returned (.error .kTimeout), out, rfl, rfl⟩
    | false => exact ⟨id, .returned (.error .kTransportError), out, rfl, rfl⟩
  | done outcome out => cases h

theorem step_cases (h : client.step s e = some s') : Transition client s e s' := by
  cases e with
  | start requestPdu out =>
    cases h
    exact .start requestPdu out
  | recvNoblock k =>
    rw [step] at h
    split at h
    · rename_i hk hq
      rw [onRecvNoblock, Option.some.injEq] at h
      subst h
      exact .drained hk hq
    · rename_i hk hq
      rw [onRecvNoblock, Option.some.injEq] at h
      subst h
      exact .drains hk hq
    · cases h
  | sendAllTo k =>
    rw [step] at h
    split at h
    · rename_i requestAdu out took hk
      rw [onSendAllTo, if_neg (not_not.mpr rfl), Option.some.injEq] at h
      subst h
      exact .sends hk
    · cases h
  | recvSome k =>
    rw [step] at h
    split at h
    · rename_i hk hq
      rw [onRecvSome, Option.some.injEq] at h
      subst h
      exact .receives hk hq
    · cases h
  | throws k timeout =>
    rw [step] at h
    split at h
    · rename_i hk
      obtain ⟨phase', hphase', rfl⟩ := Option.map_eq_some_iff.mp h
      obtain ⟨hphase, outcome, out, rfl, hfailed⟩ := onThrown_eq_some hphase'
      exact .throws hk hphase hfailed
    · cases h
  | answer i pdu =>
    rw [step, RtuFrame.create] at h
    split at h
    · rename_i d frame hi hframe
      split at hframe
      · cases hframe
      · cases hframe
        cases h
        exact .answers ⟨client.slaveId, pdu, _⟩ hi rfl
    · cases h
  | loseRequest i =>
    cases h
    exact .losesRequest i
  | deliver i =>
    rw [step] at h
    split at h
    · rename_i hi
      cases h
      exact .delivers hi
    · cases h
  | loseAnswer i =>
    cases h
    exact .losesAnswer i

/-! ### Properties of all calls -/

def Each (calls : List RunningCall) (P : Nat → RunningCall → Prop) : Prop :=
  ∀ k c, calls[k]? = some c → P k c

variable {calls : List RunningCall} {P Q : Nat → RunningCall → Prop} {k : Nat} {c : RunningCall}

instance [∀ k c, Decidable (P k c)] : Decidable (Each calls P) :=
  decidable_of_iff (∀ k < calls.length, ∀ c ∈ calls[k]?, P k c)
    ⟨fun h k c hk => h k (List.getElem?_eq_some_iff.mp hk).1 c hk, fun h k _ c hk => h k c hk⟩

theorem Each.mono (h : Each calls P) (hPQ : ∀ k c, P k c → Q k c) : Each calls Q :=
  fun k c hk => hPQ k c (h k c hk)

/-- When call `k` goes on, the others are the same as before. -/
theorem Each.set (h : ∀ i c, i ≠ k → calls[i]? = some c → P i c) (hk : P k c) :
    Each (calls.set k c) P := by
  intro i c' hi
  rw [List.getElem?_set] at hi
  by_cases hik : k = i
  · rw [if_pos hik] at hi
    split at hi
    · cases hi
      exact hik ▸ hk
    · cases hi
  · rw [if_neg hik] at hi
    exact h i c' (Ne.symm hik) hi

theorem Each.append (h : Each calls P) (hc : P calls.length c) : Each (calls ++ [c]) P := by
  intro i c' hi
  by_cases hlt : i < calls.length
  · rw [List.getElem?_append_left hlt] at hi
    exact h i c' hi
  · have hle := (List.getElem?_eq_some_iff.mp hi).1
    rw [List.length_append, List.length_singleton] at hle
    obtain rfl : i = calls.length := by omega
    rw [List.getElem?_concat_length] at hi
    cases hi
    exact hc

/-! ### What is returned comes from the device -/

def Carries (client : UdpClient) (answers : List (Nat × Bytes)) (d : Datagram) : Prop :=
  ∃ frame : RtuFrame, frame.slaveId = client.slaveId ∧
    d.bytes = RtuFrame.encode client.crc frame ∧ (d.tag, frame.pdu) ∈ answers

/-- What the call has returned with success is the answer that it has taken. -/
def RunningCall.ReturnsTaken (answers : List (Nat × Bytes)) (c : RunningCall) : Prop :=
  ∀ pdu, c.phase.returned = some pdu → ∃ j, c.took = some j ∧ (j, pdu) ∈ answers

theorem Carries.mono {answers : List (Nat × Bytes)} {d : Datagram}
    (h : Carries client answers d) (more : List (Nat × Bytes)) :
    Carries client (answers ++ more) d := by
  obtain ⟨frame, hid, hbytes, hmem⟩ := h
  exact ⟨frame, hid, hbytes, List.mem_append_left _ hmem⟩

theorem RunningCall.ReturnsTaken.mono {answers : List (Nat × Bytes)} (h : c.ReturnsTaken answers)
    (more : List (Nat × Bytes)) : c.ReturnsTaken (answers ++ more) := by
  intro pdu hpdu
  obtain ⟨j, hj, hmem⟩ := h pdu hpdu
  exact ⟨j, hj, List.mem_append_left _ hmem⟩

structure Authentic (client : UdpClient) (s : Net) : Prop where
  toClient : ∀ d ∈ s.toClient, Carries client s.answers d
  queue : ∀ d ∈ s.queue, Carries client s.answers d
  calls : Each s.calls fun _ c => c.ReturnsTaken s.answers

theorem returnsTaken_of_none {answers : List (Nat × Bytes)} {phase : Phase} {took : Option Nat}
    (h : phase.returned = none) : RunningCall.ReturnsTaken answers ⟨phase, took⟩ := by
  intro pdu hpdu
  cases h.symm.trans hpdu

/-- **A call returns the answer that it takes**, if it succeeds. -/
theorem returnsTaken_onResponse {answers : List (Nat × Bytes)} {d : Datagram}
    (h : Carries client answers d) (out : Bytes) :
    RunningCall.ReturnsTaken answers
      ⟨client.onResponse out (d.bytes.take RtuFrame.kMaxFrameSize), some d.tag⟩ := by
  obtain ⟨⟨slaveId, pdu, hsize⟩, hid, hbytes, hmem⟩ := h
  intro pdu' hpdu'
  cases hid
  rw [hbytes, RtuFrame.take_encode] at hpdu'
  obtain rfl := client.returned_onResponse_encode hsize hpdu'
  exact ⟨d.tag, rfl, hmem⟩

theorem authentic_init : Authentic client .init where
  toClient := by simp [Net.init]
  queue := by simp [Net.init]
  calls := by simp [Each, Net.init]

theorem Authentic.step (h : Authentic client s) (hs : client.step s e = some s') :
    Authentic client s' := by
  cases step_cases hs with
  | start requestPdu out =>
    exact ⟨h.toClient, h.queue, h.calls.append (returnsTaken_of_none rfl)⟩
  | drained hk hq =>
    exact ⟨h.toClient, h.queue, Each.set (fun i c _ => h.calls i c)
      (returnsTaken_of_none (returned_onDrained _ _ _))⟩
  | drains hk hq =>
    exact ⟨h.toClient, fun d hd => h.queue d (hq ▸ List.mem_cons_of_mem _ hd),
      Each.set (fun i c _ => h.calls i c) (returnsTaken_of_none rfl)⟩
  | sends hk =>
    exact ⟨h.toClient, h.queue, Each.set (fun i c _ => h.calls i c) (returnsTaken_of_none rfl)⟩
  | receives hk hq =>
    exact ⟨h.toClient, fun d hd => h.queue d (hq ▸ List.mem_cons_of_mem _ hd),
      Each.set (fun i c _ => h.calls i c)
        (returnsTaken_onResponse (h.queue _ (hq ▸ List.mem_cons_self)) _)⟩
  | throws hk hphase hfailed =>
    exact ⟨h.toClient, h.queue, Each.set (fun i c _ => h.calls i c)
      (returnsTaken_of_none hfailed)⟩
  | @answers i d frame hi hframe =>
    refine ⟨fun d' hd' => ?_, fun d' hd' => (h.queue d' hd').mono _,
      h.calls.mono fun _ _ hc => hc.mono _⟩
    rcases List.mem_append.mp hd' with hd' | hd'
    · exact (h.toClient d' hd').mono _
    · obtain rfl := List.mem_singleton.mp hd'
      exact ⟨frame, hframe, rfl, List.mem_append_right _ (List.mem_singleton_self _)⟩
  | losesRequest i => exact ⟨h.toClient, h.queue, h.calls⟩
  | delivers hi =>
    refine ⟨fun d' hd' => h.toClient d' (List.mem_of_mem_eraseIdx hd'), fun d' hd' => ?_, h.calls⟩
    rcases List.mem_append.mp hd' with hd' | hd'
    · exact h.queue d' hd'
    · obtain rfl := List.mem_singleton.mp hd'
      exact h.toClient d' (List.mem_of_getElem? hi)
  | losesAnswer i =>
    exact ⟨fun d hd => h.toClient d (List.mem_of_mem_eraseIdx hd), h.queue, h.calls⟩

/-! ### A request is sent once, and answered at most once -/

/-- A call that has not sent has taken nothing, nor has one that waits for its response. -/
def Standing (sent : List Nat) (k : Nat) (c : RunningCall) : Prop :=
  match c.phase with
  | .recvNoblock _ _ => k ∉ sent ∧ c.took = none
  | .sendAllTo _ _ => k ∉ sent ∧ c.took = none
  | .recvSome _ => k ∈ sent ∧ c.took = none
  | .done _ _ => True

/-- The requests that the device has, or has answered. -/
def Net.asked (s : Net) : List Nat := s.toDevice.map Datagram.tag ++ s.answers.map Prod.fst

structure Once (s : Net) : Prop where
  calls : Each s.calls (Standing s.sent)
  sent_lt : ∀ k ∈ s.sent, k < s.calls.length
  sent_nodup : s.sent.Nodup
  asked_sent : ∀ k ∈ s.asked, k ∈ s.sent
  asked_nodup : s.asked.Nodup

theorem standing_done {sent : List Nat} {outcome : Outcome} {out : Bytes} {took : Option Nat} :
    Standing sent k ⟨.done outcome out, took⟩ := trivial

/-- What other calls send makes no difference. -/
theorem Standing.append {sent : List Nat} {i : Nat} (h : Standing sent i c) (hik : i ≠ k) :
    Standing (sent ++ [k]) i c := by
  have hmem : i ∈ sent ++ [k] ↔ i ∈ sent := by
    rw [List.mem_append, List.mem_singleton, or_iff_left hik]
  unfold Standing at h ⊢
  rwa [hmem]

theorem standing_onDrained {sent : List Nat} {took : Option Nat} {req out : Bytes}
    (h : Standing sent k ⟨.recvNoblock req out, took⟩) :
    Standing sent k ⟨client.onDrained req out, took⟩ := by
  unfold onDrained
  split
  · exact standing_done
  · split
    · exact standing_done
    · exact h

theorem once_init : Once .init where
  calls := by simp [Each, Net.init]
  sent_lt := by simp [Net.init]
  sent_nodup := by simp [Net.init]
  asked_sent := by simp [Net.asked, Net.init]
  asked_nodup := by simp [Net.asked, Net.init]

theorem asked_perm_of_send (toDevice : List Datagram) (answers : List (Nat × Bytes))
    (d : Datagram) :
    List.Perm ((toDevice ++ [d]).map Datagram.tag ++ answers.map Prod.fst)
      (d.tag :: (toDevice.map Datagram.tag ++ answers.map Prod.fst)) := by
  rw [List.map_append, List.append_assoc]
  exact List.perm_middle

theorem asked_perm_of_answer {toDevice : List Datagram} (answers : List (Nat × Bytes)) {i : Nat}
    {d : Datagram} (hi : toDevice[i]? = some d) (pdu : Bytes) :
    List.Perm ((toDevice.eraseIdx i).map Datagram.tag ++ (answers ++ [(d.tag, pdu)]).map Prod.fst)
      (toDevice.map Datagram.tag ++ answers.map Prod.fst) := by
  obtain ⟨hlt, rfl⟩ := List.getElem?_eq_some_iff.mp hi
  have herase := (List.getElem_cons_eraseIdx_perm hlt).map Datagram.tag
  rw [List.map_append, ← List.append_assoc]
  exact (List.perm_append_singleton _ _).trans (herase.append_right _)

theorem Once.step (h : Once s) (hs : client.step s e = some s') : Once s' := by
  have hset : ∀ k c, ∀ i ∈ s.sent, i < (s.calls.set k c).length := fun k c i hi => by
    rw [List.length_set]
    exact h.sent_lt i hi
  cases step_cases hs with
  | start requestPdu out =>
    refine ⟨h.calls.append ⟨fun hmem => Nat.lt_irrefl _ (h.sent_lt _ hmem), rfl⟩, fun i hi => ?_,
      h.sent_nodup, h.asked_sent, h.asked_nodup⟩
    rw [List.length_append]
    exact Nat.lt_add_right _ (h.sent_lt i hi)
  | drained hk hq =>
    exact ⟨Each.set (fun i c _ => h.calls i c) (standing_onDrained (h.calls _ _ hk)),
      hset _ _, h.sent_nodup, h.asked_sent, h.asked_nodup⟩
  | drains hk hq =>
    exact ⟨Each.set (fun i c _ => h.calls i c) (h.calls _ _ hk),
      hset _ _, h.sent_nodup, h.asked_sent, h.asked_nodup⟩
  | @sends k requestAdu out took hk =>
    have hnew : k ∉ s.sent := (h.calls k _ hk).1
    have hasked := asked_perm_of_send s.toDevice s.answers ⟨k, requestAdu⟩
    refine ⟨Each.set (fun i c hik hi => (h.calls i c hi).append hik)
      ⟨List.mem_append_right _ (List.mem_singleton_self k), (h.calls k _ hk).2⟩, fun i hi => ?_, ?_,
      fun i hi => ?_, ?_⟩
    · rcases List.mem_append.mp hi with hi | hi
      · exact hset _ _ i hi
      · rw [List.mem_singleton.mp hi]
        exact (List.length_set ..).symm ▸ (List.getElem?_eq_some_iff.mp hk).1
    · exact List.nodup_append.mpr ⟨h.sent_nodup, List.nodup_singleton k,
        fun i hi j hj hij => hnew (List.mem_singleton.mp hj ▸ hij ▸ hi)⟩
    · rcases List.mem_cons.mp (hasked.mem_iff.mp hi) with rfl | hi
      · exact List.mem_append_right _ (List.mem_singleton_self _)
      · exact List.mem_append_left _ (h.asked_sent i hi)
    · exact hasked.nodup_iff.mpr (List.nodup_cons.mpr
        ⟨fun hmem => hnew (h.asked_sent k hmem), h.asked_nodup⟩)
  | @receives k out took d queue hk hq =>
    obtain ⟨outcome, out', hdone⟩ :=
      client.onResponse_isDone out (d.bytes.take RtuFrame.kMaxFrameSize)
    rw [hdone]
    exact ⟨Each.set (fun i c _ => h.calls i c) standing_done, hset _ _, h.sent_nodup,
      h.asked_sent, h.asked_nodup⟩
  | throws hk hphase hfailed =>
    exact ⟨Each.set (fun i c _ => h.calls i c) standing_done, hset _ _, h.sent_nodup,
      h.asked_sent, h.asked_nodup⟩
  | answers frame hi hframe =>
    have hasked := asked_perm_of_answer s.answers hi frame.pdu
    exact ⟨h.calls, h.sent_lt, h.sent_nodup, fun j hj => h.asked_sent j (hasked.mem_iff.mp hj),
      hasked.nodup_iff.mpr h.asked_nodup⟩
  | losesRequest i =>
    have hasked := ((List.eraseIdx_sublist s.toDevice i).map Datagram.tag).append_right
      (s.answers.map Prod.fst)
    exact ⟨h.calls, h.sent_lt, h.sent_nodup, fun j hj => h.asked_sent j (hasked.subset hj),
      h.asked_nodup.sublist hasked⟩
  | delivers hi => exact ⟨h.calls, h.sent_lt, h.sent_nodup, h.asked_sent, h.asked_nodup⟩
  | losesAnswer i => exact ⟨h.calls, h.sent_lt, h.sent_nodup, h.asked_sent, h.asked_nodup⟩

theorem Once.answer_unique (h : Once s) {pdu pdu' : Bytes} (hpdu : (k, pdu) ∈ s.answers)
    (hpdu' : (k, pdu') ∈ s.answers) : pdu' = pdu := by
  have hnodup := (List.nodup_append.mp h.asked_nodup).2.1
  exact (Prod.mk.inj (List.inj_on_of_nodup_map hnodup hpdu' hpdu rfl)).2

/-! ### Freshness -/

/-- Whenever call `k` has returned success, it has returned the PDU of the device's answer
to request `k`, the one answer there is to it, and has taken no other. -/
def Fresh (s : Net) : Prop :=
  Each s.calls fun k c => ∀ pdu, c.phase.returned = some pdu →
    c.took = some k ∧ (k, pdu) ∈ s.answers ∧ ∀ pdu', (k, pdu') ∈ s.answers → pdu' = pdu

/-- **Freshness comes down to who takes what.** -/
theorem fresh_of_took_own (hauth : Authentic client s) (honce : Once s)
    (hown : Each s.calls fun k c => ∀ j, c.took = some j → j = k) : Fresh s := by
  intro k c hk pdu hpdu
  obtain ⟨j, hj, hmem⟩ := hauth.calls k c hk pdu hpdu
  obtain rfl := hown k c hk j hj
  exact ⟨hj, hmem, fun pdu' hpdu' => honce.answer_unique hmem hpdu'⟩

/-- A call that returns what the device did not answer to it is not fresh. -/
theorem not_fresh {pdu : Bytes} (h : s.calls[k]?.bind (fun c => c.phase.returned) = some pdu)
    (hmem : (k, pdu) ∉ s.answers) : ¬ Fresh s := by
  intro hfresh
  obtain ⟨c, hc, hpdu⟩ := Option.bind_eq_some_iff.mp h
  exact hmem (hfresh k c hc pdu hpdu).2.1

def slaveOne : UdpClient := ⟨1, bitwiseCrc⟩

end UdpClient

end Modbus
