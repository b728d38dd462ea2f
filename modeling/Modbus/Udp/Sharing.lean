import Modbus.Udp.Network

/-!
# Callers that share a client

`ClientComponent::GetClient` gives the same client to every caller, and nothing keeps
their calls apart: all of them drain, send and receive on one socket.  Here the network
loses nothing and keeps the order, and the device answers in order.

* `Ordered`: then the answers wait in the order in which the calls have sent.
* `Ordered.isTurn_iff`: the first of the calls that still wait is the one whose answer
  comes first.
* `own_answers_of_turn`: as long as only the first of the calls that still wait takes
  a datagram, every call gets its own answer.
* `not_own_answers_swapped`: if the second of two receives first, it returns the answer
  to the first.
-/

namespace Modbus

namespace UdpClient

open Machine Phase

/-! ### The two conditions -/

/-- The network and the device keep the order, and nothing is lost. -/
def InOrder : Event → Prop
  | .answer i _ => i = 0
  | .deliver i => i = 0
  | .loseRequest _ => False
  | .loseAnswer _ => False
  | _ => True

/-- When call `k` takes a datagram, if there is one, every other call that has sent has its
own already, or has sent later. -/
def Net.IsTurn (s : Net) (k : Nat) : Prop :=
  s.queue = [] ∨ Each s.calls fun i c =>
    i ∈ s.sent → c.took = none → i = k ∨ s.sent.idxOf k < s.sent.idxOf i

def InTurn (s : Net) : Event → Prop
  | .recvNoblock k => s.IsTurn k
  | .recvSome k => s.IsTurn k
  | _ => True

instance : DecidablePred InOrder
  | .answer i _ => Nat.decEq i 0
  | .deliver i => Nat.decEq i 0
  | .loseRequest _ | .loseAnswer _ => isFalse id
  | .start _ _ | .recvNoblock _ | .sendAllTo _ | .recvSome _ | .throws _ _ => isTrue trivial

instance (s : Net) (k : Nat) : Decidable (s.IsTurn k) :=
  inferInstanceAs (Decidable (s.queue = [] ∨ Each s.calls fun i c =>
    i ∈ s.sent → c.took = none → i = k ∨ s.sent.idxOf k < s.sent.idxOf i))

instance (s : Net) : DecidablePred (InTurn s)
  | .recvNoblock k => inferInstanceAs (Decidable (s.IsTurn k))
  | .recvSome k => inferInstanceAs (Decidable (s.IsTurn k))
  | .start _ _ | .sendAllTo _ | .throws _ _ | .answer _ _ | .loseRequest _ | .deliver _
  | .loseAnswer _ => isTrue trivial

/-! ### The invariant -/

variable {client : UdpClient} {s s' : Net} {e : Event}

/-- The answers that have been taken, those on the socket, those under way, and the requests
under way. -/
def line (taken : List (Nat × Nat)) (queue toClient toDevice : List Datagram) : List Nat :=
  taken.map Prod.snd ++ (queue ++ toClient ++ toDevice).map Datagram.tag

section Line

variable (taken : List (Nat × Nat)) (queue toClient toDevice : List Datagram) (d : Datagram)

theorem line_send : line taken queue toClient (toDevice ++ [d])
    = line taken queue toClient toDevice ++ [d.tag] := by
  simp [line]

theorem line_answer (bytes : Bytes) : line taken queue (toClient ++ [⟨d.tag, bytes⟩]) toDevice
    = line taken queue toClient (d :: toDevice) := by
  simp [line]

theorem line_deliver : line taken (queue ++ [d]) toClient toDevice
    = line taken queue (d :: toClient) toDevice := by
  simp [line]

theorem line_take (k : Nat) : line (taken ++ [(k, d.tag)]) queue toClient toDevice
    = line taken (d :: queue) toClient toDevice := by
  simp [line]

end Line

/-- Everything is in the order of sending, and what has been taken is with its own call. -/
structure Ordered (s : Net) : Prop where
  order : s.sent = line s.taken s.queue s.toClient s.toDevice
  own : ∀ p ∈ s.taken, p.1 = p.2
  took : Each s.calls fun k c => ∀ j, c.took = some j ↔ (k, j) ∈ s.taken

theorem ordered_init : Ordered .init where
  order := rfl
  own := by simp [Net.init]
  took := by simp [Each, Net.init]

theorem Ordered.not_taken (h : Ordered s) {k : Nat} {c : RunningCall} (hk : s.calls[k]? = some c)
    (hc : c.took = none) : k ∉ s.taken.map Prod.snd := by
  intro hmem
  obtain ⟨⟨i, j⟩, hp, rfl⟩ := List.mem_map.mp hmem
  obtain rfl : i = j := h.own _ hp
  have htook := (h.took i c hk i).mpr hp
  rw [hc] at htook
  cases htook

/-- What comes first on the socket has been sent for, and has not been taken. -/
theorem Ordered.first (h : Ordered s) (honce : Once s) {d : Datagram} {queue : List Datagram}
    (hq : s.queue = d :: queue) : d.tag ∈ s.sent ∧ d.tag ∉ s.taken.map Prod.snd ∧
      s.sent = s.taken.map Prod.snd ++ d.tag :: line [] queue s.toClient s.toDevice := by
  have hsplit : s.sent = s.taken.map Prod.snd ++ d.tag :: line [] queue s.toClient s.toDevice := by
    rw [h.order, hq]
    rfl
  have hnodup := honce.sent_nodup
  rw [hsplit] at hnodup
  refine ⟨?_, fun hmem => (List.nodup_append.mp hnodup).2.2 _ hmem _ List.mem_cons_self rfl, hsplit⟩
  rw [hsplit]
  exact List.mem_append_right _ List.mem_cons_self

/-- **It is a call's turn** exactly when what comes first on the socket is its own answer. -/
theorem Ordered.isTurn_iff (h : Ordered s) (honce : Once s) {k : Nat} {c : RunningCall}
    {d : Datagram} {queue : List Datagram} (hk : s.calls[k]? = some c) (hc : c.took = none)
    (hq : s.queue = d :: queue) : s.IsTurn k ↔ d.tag = k := by
  obtain ⟨hsent, hfirst, hsplit⟩ := h.first honce hq
  constructor
  · intro hturn
    -- the call that the datagram belongs to is still waiting for it
    obtain ⟨c', hc'⟩ : ∃ c', s.calls[d.tag]? = some c' :=
      ⟨_, List.getElem?_eq_getElem (honce.sent_lt _ hsent)⟩
    have hwaits : c'.took = none := by
      by_contra htook
      obtain ⟨j, hj⟩ := Option.ne_none_iff_exists'.mp htook
      have hmem := (h.took _ c' hc' j).mp hj
      exact hfirst (List.mem_map.mpr ⟨_, hmem, (h.own _ hmem).symm⟩)
    rcases hturn with hempty | hturn
    · cases hq.symm.trans hempty
    · rcases hturn _ c' hc' hsent hwaits with heq | hlt
      · exact heq
      · rw [hsplit, List.idxOf_append_of_notMem hfirst,
          List.idxOf_append_of_notMem (h.not_taken hk hc), List.idxOf_cons_self] at hlt
        omega
  · intro htag
    refine .inr fun i c' hi _ hwaits => ?_
    by_cases hik : i = k
    · exact .inl hik
    · right
      rw [hsplit, ← htag, List.idxOf_append_of_notMem hfirst,
        List.idxOf_append_of_notMem (h.not_taken hi hwaits), List.idxOf_cons_self,
        List.idxOf_cons_ne _ (fun heq => hik (heq.symm.trans htag))]
      omega

theorem Ordered.took_set (h : Ordered s) {k : Nat} {phase phase' : Phase} {took : Option Nat}
    (hk : s.calls[k]? = some ⟨phase, took⟩) :
    Each (s.calls.set k ⟨phase', took⟩) fun k c => ∀ j, c.took = some j ↔ (k, j) ∈ s.taken :=
  Each.set (fun i c _ => h.took i c) fun j => h.took k _ hk j

theorem Ordered.queue_eq_nil (h : Ordered s) (honce : Once s) {k : Nat} {req out : Bytes}
    {took : Option Nat} (hk : s.calls[k]? = some ⟨.recvNoblock req out, took⟩)
    (hturn : s.IsTurn k) : s.queue = [] := by
  obtain ⟨hunsent, htook⟩ : k ∉ s.sent ∧ took = none := honce.calls k _ hk
  cases hq : s.queue with
  | nil => rfl
  | cons d queue =>
    refine absurd ?_ hunsent
    rw [← (h.isTurn_iff honce hk htook hq).mp hturn]
    exact (h.first honce hq).1

theorem eq_cons_eraseIdx {l : List Datagram} {d : Datagram} (h : l[0]? = some d) :
    l = d :: l.eraseIdx 0 := by
  cases l with
  | nil => cases h
  | cons d' l =>
    cases h
    rfl

theorem Ordered.step (h : Ordered s) (honce : Once s) (horder : InOrder e) (hturn : InTurn s e)
    (hs : client.step s e = some s') : Ordered s' := by
  cases step_cases hs with
  | start req out =>
    refine ⟨h.order, h.own, h.took.append fun j => ⟨fun hj => (by cases hj), fun hmem => ?_⟩⟩
    -- a call that starts now has not sent, so nobody has taken its answer
    obtain rfl : s.calls.length = j := h.own _ hmem
    have hsent : s.calls.length ∈ s.sent := by
      rw [h.order]
      exact List.mem_append_left _ (List.mem_map_of_mem hmem)
    exact absurd (honce.sent_lt _ hsent) (Nat.lt_irrefl _)
  | drained hk hq => exact ⟨h.order, h.own, h.took_set hk⟩
  | drains hk hq => cases hq.symm.trans (h.queue_eq_nil honce hk hturn)
  | @sends k adu out took hk =>
    refine ⟨?_, h.own, h.took_set hk⟩
    show s.sent ++ [k] = line s.taken s.queue s.toClient (s.toDevice ++ [⟨k, adu⟩])
    rw [line_send, h.order]
  | @receives k out took d queue hk hq =>
    have htook : took = none := (honce.calls k _ hk).2
    obtain rfl : d.tag = k := (h.isTurn_iff honce hk htook hq).mp hturn
    have hnew := h.not_taken hk htook
    refine ⟨?_, fun p hp => ?_, Each.set (fun i c hik hi j => ?_) fun j => ?_⟩
    · show s.sent = line (s.taken ++ [(d.tag, d.tag)]) queue s.toClient s.toDevice
      rw [line_take, h.order, hq]
    · rcases List.mem_append.mp hp with hp | hp
      · exact h.own p hp
      · rw [List.mem_singleton.mp hp]
    · rw [h.took i c hi j, List.mem_append, List.mem_singleton, Prod.mk.injEq, or_iff_left]
      exact fun heq => hik heq.1
    · rw [List.mem_append, List.mem_singleton, Prod.mk.injEq, Option.some.injEq]
      refine ⟨fun heq => .inr ⟨rfl, heq.symm⟩, fun hj => ?_⟩
      rcases hj with hmem | heq
      · exact h.own _ hmem
      · exact heq.2.symm
  | throws hk hphase hfailed => exact ⟨h.order, h.own, h.took_set hk⟩
  | @answers i d frame hi hframe =>
    obtain rfl : i = 0 := horder
    refine ⟨?_, h.own, h.took⟩
    show s.sent = line s.taken s.queue (s.toClient ++ [⟨d.tag, _⟩]) (s.toDevice.eraseIdx 0)
    rw [line_answer, ← eq_cons_eraseIdx hi, h.order]
  | losesRequest i => exact horder.elim
  | @delivers i d hi =>
    obtain rfl : i = 0 := horder
    refine ⟨?_, h.own, h.took⟩
    show s.sent = line s.taken (s.queue ++ [d]) (s.toClient.eraseIdx 0) s.toDevice
    rw [line_deliver, ← eq_cons_eraseIdx hi, h.order]
  | losesAnswer i => exact horder.elim

/-! ### Runs -/

/-- Every call that has returned success has returned the answer to its own request, and
no call has taken the answer to another. -/
def OwnAnswers (s : Net) : Prop := Fresh s ∧ ∀ p ∈ s.taken, p.1 = p.2

/-- **Callers that take their datagrams in turn do not mix up their answers**, however else
their calls interleave. -/
theorem own_answers_of_turn (client : UdpClient) (s : Net)
    (h : Run client.step (fun s e => InOrder e ∧ InTurn s e) .init s) : OwnAnswers s := by
  have hauth : Authentic client s := h.invariant authentic_init fun _ _ _ h _ hs => h.step hs
  have hordered : Once s ∧ Ordered s := by
    refine h.invariant (I := fun s => Once s ∧ Ordered s) ⟨once_init, ordered_init⟩ ?_
    exact fun _ _ _ h hguard hs => ⟨h.1.step hs, h.2.step h.1 hguard.1 hguard.2 hs⟩
  refine ⟨fresh_of_took_own hauth hordered.1 fun k c hk j hj => ?_, hordered.2.own⟩
  exact (hordered.2.own _ ((hordered.2.took k c hk j).mp hj)).symm

/-- Two calls that overlap, the second one behind the first at every step. -/
def overlappingRun : List Event :=
  [.start [3, 0, 0, 0, 1] Transport.emptyPdu, .start [3, 0, 9, 0, 1] Transport.emptyPdu,
    .recvNoblock 0, .recvNoblock 1, .sendAllTo 0, .sendAllTo 1,
    .answer 0 [3, 2, 0, 7], .deliver 0, .recvSome 0,
    .answer 0 [3, 2, 0, 8], .deliver 0, .recvSome 1]

theorem overlappingRun_isSome : (exec slaveOne.step (fun s e => InOrder e ∧ InTurn s e) .init
    overlappingRun).isSome := by decide +kernel

theorem own_answers_of_turn_overlapping : ∃ s : Net, OwnAnswers s ∧
    s.calls.map (fun c => c.phase.returned) = [some [3, 2, 0, 7], some [3, 2, 0, 8]] :=
  ⟨_, own_answers_of_turn slaveOne _ (.of_isSome overlappingRun_isSome), by decide +kernel⟩

/-- Call 0 has sent first, and call 1 receives first. -/
def swappedRun : List Event :=
  [.start [3, 0, 0, 0, 1] Transport.emptyPdu, .start [3, 0, 9, 0, 1] Transport.emptyPdu,
    .recvNoblock 0, .recvNoblock 1, .sendAllTo 0, .sendAllTo 1,
    .answer 0 [3, 2, 0, 7], .answer 0 [3, 2, 0, 8], .deliver 0, .deliver 0,
    .recvSome 1, .recvSome 0]

theorem swappedRun_isSome :
    (exec slaveOne.step (fun _ e => InOrder e) .init swappedRun).isSome := by decide +kernel

/-- **Two calls return each other's answers**, if the second receives first. -/
theorem not_own_answers_swapped : ∃ s : Net, Run slaveOne.step (fun _ e => InOrder e) .init s ∧
    s.calls.map (fun c => c.phase.returned) = [some [3, 2, 0, 8], some [3, 2, 0, 7]] ∧
    s.answers = [(0, [3, 2, 0, 7]), (1, [3, 2, 0, 8])] ∧ s.taken = [(1, 0), (0, 1)] ∧
    ¬ OwnAnswers s := by
  have hreturned : ((exec slaveOne.step (fun _ e => InOrder e) .init swappedRun).get
      swappedRun_isSome).calls[1]?.bind (fun c => c.phase.returned) = some [3, 2, 0, 7] := by
    decide +kernel
  have hanswers : ((exec slaveOne.step (fun _ e => InOrder e) .init swappedRun).get
      swappedRun_isSome).answers = [(0, [3, 2, 0, 7]), (1, [3, 2, 0, 8])] := by
    decide +kernel
  refine ⟨_, .of_isSome swappedRun_isSome, by decide +kernel, hanswers, by decide +kernel,
    fun hown => not_fresh hreturned ?_ hown.1⟩
  rw [hanswers]
  decide

end UdpClient

end Modbus
