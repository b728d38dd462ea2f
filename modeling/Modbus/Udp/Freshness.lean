import Modbus.Udp.Network

/-!
# Answers to earlier requests

One call is made after another, while the network delays, reorders and loses what it
carries.  What is on the socket before a call is drained; what arrives between the drain
and the receive is not, and a frame does not say which request it answers.

* `Windowed`: as long as no late answer arrives in that window, a call that waits finds
  its own answer first.
* `not_fresh_of_late`: and if another answer comes first, the call returns that.
* `fresh_of_noLateAnswer`: without late answers in the window every call is fresh.
* `not_fresh_late`: with one of them, a call is not.
-/

namespace Modbus

namespace UdpClient

open Machine Phase Span

/-! ### The two conditions -/

/-- A call starts when the ones before it have ended. -/
def Sequential (s : Net) : Event → Prop
  | .start _ _ => Each s.calls fun _ c => c.phase.IsDone
  | _ => True

/-- Between the drain and the receive. -/
def Phase.InWindow : Phase → Prop
  | .sendAllTo _ _ => True
  | .recvSome _ => True
  | _ => False

/-- What arrives while call `k` is between its drain and its receive is the answer to
request `k`, or comes behind it. -/
def NoLateAnswer (s : Net) : Event → Prop
  | .deliver i => ∀ d ∈ s.toClient[i]?, Each s.calls fun k c =>
    c.phase.InWindow → d.tag = k ∨ k ∈ s.queue.map Datagram.tag
  | _ => True

instance : DecidablePred Phase.IsDone
  | .recvNoblock _ _ => isFalse id
  | .sendAllTo _ _ => isFalse id
  | .recvSome _ => isFalse id
  | .done _ _ => isTrue trivial

instance : DecidablePred Phase.InWindow
  | .recvNoblock _ _ => isFalse id
  | .sendAllTo _ _ => isTrue trivial
  | .recvSome _ => isTrue trivial
  | .done _ _ => isFalse id

instance (s : Net) : DecidablePred (Sequential s)
  | .start _ _ => inferInstanceAs (Decidable (Each s.calls fun _ c => c.phase.IsDone))
  | .recvNoblock _ | .sendAllTo _ | .recvSome _ | .throws _ _ | .answer _ _ | .loseRequest _
  | .deliver _ | .loseAnswer _ => isTrue trivial

instance (s : Net) : DecidablePred (NoLateAnswer s)
  | .deliver i => inferInstanceAs (Decidable (∀ d ∈ s.toClient[i]?, Each s.calls fun k c =>
    c.phase.InWindow → d.tag = k ∨ k ∈ s.queue.map Datagram.tag))
  | .start _ _ | .recvNoblock _ | .sendAllTo _ | .recvSome _ | .throws _ _ | .answer _ _
  | .loseRequest _ | .loseAnswer _ => isTrue trivial

/-! ### The invariant -/

variable {client : UdpClient} {s s' : Net} {e : Event} {calls : List RunningCall}
  {queue : List Datagram}

/-- Only the last call is still going on, what it finds first in its window is the answer
to its own request, and that is what any call has taken. -/
structure Windowed (calls : List RunningCall) (queue : List Datagram) : Prop where
  last : Each calls fun k c => ¬ c.phase.IsDone → k + 1 = calls.length
  first : Each calls fun k c => c.phase.InWindow → ∀ d ∈ queue.head?, d.tag = k
  own : Each calls fun k c => ∀ j, c.took = some j → j = k

theorem windowed_nil : Windowed [] [] where
  last := by simp [Each]
  first := by simp [Each]
  own := by simp [Each]

theorem Phase.InWindow.not_isDone {phase : Phase} (h : phase.InWindow) : ¬ phase.IsDone := by
  cases phase <;> first | exact id | exact h.elim

/-- While a call is going on, no other is in its window. -/
theorem Windowed.not_inWindow (h : Windowed calls queue) {i k : Nat} {c c' : RunningCall}
    (hk : calls[k]? = some c) (hc : ¬ c.phase.IsDone) (hi : calls[i]? = some c') (hik : i ≠ k) :
    ¬ c'.phase.InWindow := by
  intro hwindow
  have hlast := h.last k c hk hc
  have hlast' := h.last i c' hi hwindow.not_isDone
  omega

/-- Call `k` goes on.  The others are not in their windows, so the queue may change. -/
theorem Windowed.set (h : Windowed calls queue) {k : Nat} {c c' : RunningCall}
    {queue' : List Datagram} (hk : calls[k]? = some c) (hc : ¬ c.phase.IsDone)
    (hfirst : c'.phase.InWindow → ∀ d ∈ queue'.head?, d.tag = k)
    (hown : ∀ j, c'.took = some j → j = k) : Windowed (calls.set k c') queue' where
  last := by
    refine Each.set (fun i c' _ hi hc' => ?_) fun _ => ?_
    · exact (h.last i c' hi hc').trans (List.length_set ..).symm
    · exact (h.last k c hk hc).trans (List.length_set ..).symm
  first := Each.set (fun i c' hik hi hwindow => (h.not_inWindow hk hc hi hik hwindow).elim) hfirst
  own := Each.set (fun i c' _ => h.own i c') hown

theorem Windowed.append (h : Windowed calls queue) (hdone : Each calls fun _ c => c.phase.IsDone)
    (req out : Bytes) : Windowed (calls ++ [⟨UdpClient.start req out, none⟩]) queue where
  last := by
    refine Each.append (fun k c hk hc => (hc (hdone k c hk)).elim) fun _ => ?_
    rw [List.length_append, List.length_singleton]
  first := h.first.append fun hwindow => hwindow.elim
  own := h.own.append fun j hj => by cases hj

theorem Windowed.deliver (h : Windowed calls queue) {d : Datagram}
    (hd : Each calls fun k c => c.phase.InWindow → d.tag = k ∨ k ∈ queue.map Datagram.tag) :
    Windowed calls (queue ++ [d]) where
  last := h.last
  first k c hk hwindow d' hd' := by
    cases queue with
    | nil =>
      obtain rfl : d = d' := Option.some.inj hd'
      exact (hd k c hk hwindow).resolve_right (List.not_mem_nil)
    | cons first rest => exact h.first k c hk hwindow d' hd'
  own := h.own

theorem Windowed.step (h : Windowed s.calls s.queue) (hseq : Sequential s e)
    (hlate : NoLateAnswer s e) (hs : client.step s e = some s') : Windowed s'.calls s'.queue := by
  cases step_cases hs with
  | start req out => exact h.append hseq req out
  | drained hk hq =>
    -- the drain ends on an empty socket: the window opens with nothing in it
    exact h.set hk id (fun _ d hd => by cases hq ▸ hd) fun j hj => h.own _ _ hk j hj
  | drains hk hq => exact h.set hk id (fun hwindow => hwindow.elim) fun j hj => h.own _ _ hk j hj
  | sends hk => exact h.set hk id (fun _ => h.first _ _ hk trivial) fun j hj => h.own _ _ hk j hj
  | @receives k out took d queue hk hq =>
    obtain ⟨outcome, out', hdone⟩ :=
      client.onResponse_isDone out (d.bytes.take RtuFrame.kMaxFrameSize)
    have hfirst : d.tag = k := h.first k _ hk trivial d (by rw [hq]; rfl)
    rw [hdone]
    refine h.set hk id (fun hwindow => hwindow.elim) fun j hj => ?_
    exact (Option.some.inj hj).symm.trans hfirst
  | throws hk hphase hfailed =>
    exact h.set hk hphase (fun hwindow => hwindow.elim) fun j hj => h.own _ _ hk j hj
  | answers frame hi hframe => exact h
  | losesRequest i => exact h
  | delivers hi => exact h.deliver (hlate _ hi)
  | losesAnswer i => exact h

/-! ### A late answer in the window -/

/-- **What comes first is returned**, if there is room for it, and when it answers another
request, the call is not fresh. -/
theorem not_fresh_of_late (hauth : Authentic client s) {k : Nat} {out : Bytes}
    {took : Option Nat} {d : Datagram} (hk : s.calls[k]? = some ⟨.recvSome out, took⟩)
    (hq : s.queue = d :: queue) (hd : d.tag ≠ k) (hout : kMaxPduSize ≤ out.length) :
    ∃ s', client.step s (.recvSome k) = some s' ∧ ¬ Fresh s' := by
  obtain ⟨⟨slaveId, pdu, hsize⟩, hid, hbytes, -⟩ := hauth.queue d (hq ▸ List.mem_cons_self)
  cases hid
  have hresponse := client.onResponse_encode hsize ((Nat.not_lt.mp hsize).trans hout)
  simp only [step, hk, hq, onRecvSome, hbytes, RtuFrame.take_encode, hresponse]
  refine ⟨_, rfl, fun hfresh => ?_⟩
  have hcall : (s.calls.set k ⟨.done (.returned (.ok pdu.length)) (copyTo out 0 pdu),
      some d.tag⟩)[k]? = some ⟨.done (.returned (.ok pdu.length)) (copyTo out 0 pdu),
      some d.tag⟩ := List.getElem?_set_self (List.getElem?_eq_some_iff.mp hk).1
  exact hd (Option.some.inj (hfresh k _ hcall _ rfl).1)

/-! ### Runs -/

/-- **A call returns the answer to its own request**, in every run in which no answer to
an earlier request arrives between a drain and the receive, ahead of the call's own. -/
theorem fresh_of_noLateAnswer (client : UdpClient) (s : Net)
    (h : Run client.step (fun s e => Sequential s e ∧ NoLateAnswer s e) .init s) : Fresh s := by
  have hauth : Authentic client s :=
    h.invariant authentic_init fun _ _ _ h _ hs => h.step hs
  have honce : Once s := h.invariant once_init fun _ _ _ h _ hs => h.step hs
  have hwindow : Windowed s.calls s.queue :=
    h.invariant (I := fun s => Windowed s.calls s.queue) windowed_nil
      fun _ _ _ h hguard hs => h.step hguard.1 hguard.2 hs
  exact fresh_of_took_own hauth honce hwindow.own

/-- Call 0 times out and its answer comes late, but before call 1 drains the socket. -/
def drainedRun : List Event :=
  [.start [3, 0, 0, 0, 1] Transport.emptyPdu, .recvNoblock 0, .sendAllTo 0, .throws 0 true,
    .answer 0 [3, 2, 0, 7], .deliver 0,
    .start [3, 0, 0, 0, 1] Transport.emptyPdu, .recvNoblock 1, .recvNoblock 1, .sendAllTo 1,
    .answer 0 [3, 2, 0, 8], .deliver 0, .recvSome 1]

theorem drainedRun_isSome : (exec slaveOne.step (fun s e => Sequential s e ∧ NoLateAnswer s e) .init
    drainedRun).isSome := by decide +kernel

theorem fresh_of_noLateAnswer_drained : ∃ s : Net, Fresh s ∧ s.taken = [(1, 0), (1, 1)] ∧
    s.calls[1]?.bind (fun c => c.phase.returned) = some [3, 2, 0, 8] :=
  ⟨_, fresh_of_noLateAnswer slaveOne _ (.of_isSome drainedRun_isSome), by decide +kernel,
    by decide +kernel⟩

/-- The same, but the answer to request 0 comes after call 1 has drained the socket. -/
def lateRun : List Event :=
  [.start [3, 0, 0, 0, 1] Transport.emptyPdu, .recvNoblock 0, .sendAllTo 0, .throws 0 true,
    .answer 0 [3, 2, 0, 7],
    .start [3, 0, 0, 0, 1] Transport.emptyPdu, .recvNoblock 1, .deliver 0, .sendAllTo 1,
    .recvSome 1]

theorem lateRun_isSome : (exec slaveOne.step Sequential .init lateRun).isSome := by decide +kernel

/-- **A late answer in the window is returned** as the answer to another request. -/
theorem not_fresh_late : ∃ s : Net, Run slaveOne.step Sequential .init s ∧
    s.calls[1]?.bind (fun c => c.phase.returned) = some [3, 2, 0, 7] ∧
    s.answers = [(0, [3, 2, 0, 7])] ∧ ¬ Fresh s := by
  have hreturned : ((exec slaveOne.step Sequential .init lateRun).get lateRun_isSome).calls[1]?.bind
      (fun c => c.phase.returned) = some [3, 2, 0, 7] := by decide +kernel
  have hanswers : ((exec slaveOne.step Sequential .init lateRun).get lateRun_isSome).answers
      = [(0, [3, 2, 0, 7])] := by decide +kernel
  refine ⟨_, .of_isSome lateRun_isSome, hreturned, hanswers, not_fresh hreturned ?_⟩
  rw [hanswers]
  decide

end UdpClient

end Modbus
