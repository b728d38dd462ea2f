import Modbus.Remote.Operations
import Modbus.Udp.Freshness

/-!
# Many clients of one device

Any number of clients, each with a socket of its own, and an honest device at the other end of
all of them.  Each client is a `Net`, so whatever can happen to the datagrams of one client can
happen here, in any order among the clients; what is new is that the device has a memory, and
answers each request from what the memory holds when it takes it.

* `Tracked`: what one client has under way belongs to its calls, and what the device has answered
  is what the operation says, at its place in the order in which the device took the requests.
* `linearizable`: so that order explains what all callers are told.
-/

namespace Modbus

namespace Remote

open Machine Linearization Span Transport UdpClient

/-! ### The system -/

/-- A client, and the number of one of its calls. -/
abbrev CallId := Nat × Nat

/-- The device's memory, and the sockets of the clients with all that is under way.  The rest is
history: the calls, and the order in which the device has performed their operations. -/
structure Site where
  memory : Memory
  nets : Nat → Net
  history : CallId → Option (Record Call Told)
  order : List (CallId × Call)

def Site.init (memory : Memory) : Site := ⟨memory, fun _ => .init, fun _ => none, []⟩

inductive Event
  /-- Client `c` makes a call. -/
  | invoke (c : Nat) (call : Call)
  /-- The device takes a request of client `c`. -/
  | serve (c i : Nat)
  /-- An operation on the socket of client `c`, or something that the network does. -/
  | client (c : Nat) (e : UdpClient.Event)

def Site.setNet (s : Site) (c : Nat) (net : Net) : Site :=
  { s with nets := Function.update s.nets c net }

/-- The history, once `RecvSome` has brought call `k` to an end. -/
def Site.received (s : Site) (c k : Nat) (net : Net) : CallId → Option (Record Call Told) :=
  match s.history (c, k), net.calls[k]?.bind (fun call => call.phase.returned) with
  | some r, some pdu =>
    match r.op.told (answering pdu) () with
    | .ok told =>
      Function.update s.history (c, k) (some { r with returned := some (s.order.length, told) })
    | .error _ => s.history
  | _, _ => s.history

def step (client : UdpClient) (s : Site) : Event → Option Site
  | .invoke c call =>
    match call.request with
    | none => some s
    | some req => (client.step (s.nets c) (.start req emptyPdu)).map fun net =>
      { s.setNet c net with
        history := Function.update s.history (c, (s.nets c).calls.length)
          (some ⟨call, s.order.length, none⟩) }
  | .serve c i =>
    match (s.nets c).toDevice[i]? with
    | none => none
    | some d =>
      match Device.onFrame client.crc s.memory d.bytes, s.history (c, d.tag) with
      | some (memory, answer), some r =>
        match (RtuFrame.deserialize client.crc).run answer with
        | .error _ _ => none
        | .ok frame _ => (client.step (s.nets c) (.answer i frame.pdu)).map fun net =>
          { s.setNet c net with memory, order := s.order ++ [((c, d.tag), r.op)] }
      | _, _ => (client.step (s.nets c) (.loseRequest i)).map (s.setNet c)
  | .client _ (.start _ _) => none
  | .client _ (.answer _ _) => none
  | .client c (.recvSome k) => (client.step (s.nets c) (.recvSome k)).map fun net =>
    { s.setNet c net with history := s.received c k net }
  | .client c e => (client.step (s.nets c) e).map (s.setNet c)

/-- A client makes one call after another, and no late answer arrives between the drain of a call
and its receive. -/
def Guarded (s : Site) : Event → Prop
  | .invoke c _ => Each (s.nets c).calls fun _ call => call.phase.IsDone
  | .serve _ _ => True
  | .client c e => NoLateAnswer (s.nets c) e

instance (s : Site) : DecidablePred (Guarded s)
  | .invoke c _ =>
    inferInstanceAs (Decidable (Each (s.nets c).calls fun _ call => call.phase.IsDone))
  | .serve _ _ => isTrue trivial
  | .client c e => inferInstanceAs (Decidable (NoLateAnswer (s.nets c) e))

/-! ### One client -/

def FrameOf (client : UdpClient) (op : Call) (adu : Bytes) : Prop :=
  ∃ req h, op.Sends req ∧ adu = RtuFrame.encode client.crc ⟨client.slaveId, req, h⟩

/-- A call that has not sent yet is about to send the request of its operation. -/
def Asking (client : UdpClient) (op : Call) : Phase → Prop
  | .recvNoblock requestPdu _ => op.Sends requestPdu
  | .sendAllTo requestAdu _ => FrameOf client op requestAdu
  | .recvSome _ => True
  | .done _ _ => True

/-- An answer tells the call of an operation what the operation says at place `i`. -/
def Answers (start : Memory) (order : List (CallId × Call)) (id : CallId) (op : Call) (i : Nat)
    (pdu : Bytes) : Prop :=
  order[i]? = some (id, op) ∧
    op.told (answering pdu) () = .ok (Object.said Call.perform start order i op)

/-- What client `c` has under way, where `ops k` is the operation of its call `k`. -/
structure Tracked (client : UdpClient) (start : Memory) (order : List (CallId × Call)) (c : Nat)
    (ops : Nat → Option Call) (net : Net) : Prop where
  authentic : Authentic client net
  once : Once net
  windowed : Windowed net.calls net.queue
  made : ∀ k, ops k = none ↔ net.calls.length ≤ k
  asking : Each net.calls fun k call => ∀ op ∈ ops k, Asking client op call.phase
  toDevice : ∀ d ∈ net.toDevice, ∃ op ∈ ops d.tag, FrameOf client op d.bytes
  answers : ∀ k pdu, (k, pdu) ∈ net.answers → ∃ op ∈ ops k, ∃ i,
    Answers start order (c, k) op i pdu
  performed : ∀ k op, ((c, k), op) ∈ order → k ∈ net.answers.map Prod.fst

section

variable {client : UdpClient} {start : Memory} {order : List (CallId × Call)} {c : Nat}
  {ops : Nat → Option Call} {net net' : Net}

theorem asking_onDrained {op : Call} {req : Bytes} (h : op.Sends req) (out : Bytes) :
    Asking client op (client.onDrained req out) := by
  have hlen := Nat.not_lt.mpr (Call.length_le_of_sends h)
  rw [client.onDrained_of_le hlen]
  exact ⟨req, hlen, h, rfl⟩

theorem asking_onResponse (op : Call) (out responseSpan : Bytes) :
    Asking client op (client.onResponse out responseSpan) := by
  obtain ⟨outcome, out', hdone⟩ := client.onResponse_isDone out responseSpan
  rw [hdone]
  trivial

/-- Operations that are performed for others, or later, change no answer. -/
theorem Answers.append {id : CallId} {op : Call} {i : Nat} {pdu : Bytes}
    (h : Answers start order id op i pdu) (more : List (CallId × Call)) :
    Answers start (order ++ more) id op i pdu := by
  have hlt : i < order.length := (List.getElem?_eq_some_iff.mp h.1).1
  refine ⟨by rw [List.getElem?_append_left hlt]; exact h.1, ?_⟩
  rw [Object.said, List.take_append_of_le_length (Nat.le_of_lt hlt)]
  exact h.2

/-- **What the network does**, and the operations on the socket, are about the calls there are. -/
theorem Tracked.step (h : Tracked client start order c ops net) {e : UdpClient.Event}
    (hs : client.step net e = some net') (hlate : NoLateAnswer net e)
    (hstart : ∀ req out, e ≠ .start req out) (hanswer : ∀ i pdu, e ≠ .answer i pdu) :
    Tracked client start order c ops net' := by
  have hseq : Sequential net e := by
    cases e with
    | start req out => exact absurd rfl (hstart req out)
    | _ => trivial
  refine ⟨h.authentic.step hs, h.once.step hs, h.windowed.step hseq hlate hs, ?_, ?_, ?_, ?_, ?_⟩
  · have hlen : net'.calls.length = net.calls.length := by
      cases step_cases hs with
      | start req out => exact absurd rfl (hstart req out)
      | answers | losesRequest | delivers | losesAnswer => rfl
      | drained | drains | sends | receives | throws => exact List.length_set ..
    rw [hlen]
    exact h.made
  · cases step_cases hs with
    | start req out => exact absurd rfl (hstart req out)
    | @drained k requestPdu out took hk hq =>
      refine Each.set (fun i call _ => h.asking i call) (fun op hop => ?_)
      have hsends : op.Sends requestPdu := h.asking k _ hk op hop
      exact asking_onDrained hsends out
    | drains hk hq =>
      exact Each.set (fun i call _ => h.asking i call) (fun op hop => h.asking _ _ hk op hop)
    | sends hk => exact Each.set (fun i call _ => h.asking i call) (fun _ _ => trivial)
    | receives hk hq =>
      exact Each.set (fun i call _ => h.asking i call) (fun op _ => asking_onResponse op _ _)
    | throws hk hphase hfailed =>
      exact Each.set (fun i call _ => h.asking i call) (fun _ _ => trivial)
    | answers | losesRequest | delivers | losesAnswer => exact h.asking
  · cases step_cases hs with
    | start req out => exact absurd rfl (hstart req out)
    | @sends k requestAdu out took hk =>
      intro d hd
      rcases List.mem_append.mp hd with hd | hd
      · exact h.toDevice d hd
      · obtain rfl := List.mem_singleton.mp hd
        -- the call that sends has been made, so there is an operation of it
        obtain ⟨op, hop⟩ := Option.ne_none_iff_exists'.mp
          (mt (h.made k).mp (Nat.not_le.mpr (List.getElem?_eq_some_iff.mp hk).1))
        exact ⟨op, hop, h.asking k _ hk op hop⟩
    | answers frame hi hframe => exact absurd rfl (hanswer _ _)
    | losesRequest i => exact fun d hd => h.toDevice d (List.mem_of_mem_eraseIdx hd)
    | drained | drains | receives | throws | delivers | losesAnswer => exact h.toDevice
  · cases step_cases hs with
    | start req out => exact absurd rfl (hstart req out)
    | answers frame hi hframe => exact absurd rfl (hanswer _ _)
    | _ => exact h.answers
  · cases step_cases hs with
    | start req out => exact absurd rfl (hstart req out)
    | answers frame hi hframe => exact absurd rfl (hanswer _ _)
    | _ => exact h.performed

theorem Tracked.invoked (h : Tracked client start order c ops net) {call : Call} {req : Bytes}
    (hsends : call.Sends req) (hdone : Each net.calls fun _ call => call.phase.IsDone)
    (hs : client.step net (.start req emptyPdu) = some net') :
    Tracked client start order c (Function.update ops net.calls.length (some call)) net' := by
  have hauth := h.authentic.step hs
  have honce := h.once.step hs
  have hwindowed := h.windowed.step (e := .start req emptyPdu) hdone trivial hs
  have hold : ∀ k, k < net.calls.length →
      Function.update ops net.calls.length (some call) k = ops k := fun k hk =>
    Function.update_of_ne (Nat.ne_of_lt hk) _ _
  have hmade : ∀ k op, op ∈ ops k → k < net.calls.length := by
    intro k op hop
    by_contra hge
    rw [(h.made k).mpr (Nat.not_lt.mp hge)] at hop
    cases hop
  cases step_cases hs with
  | start =>
  refine ⟨hauth, honce, hwindowed, fun k => ?_, ?_, fun d hd => ?_, fun k pdu hk => ?_, h.performed⟩
  · rw [List.length_append, List.length_singleton]
    by_cases hk : k = net.calls.length
    · subst hk
      simp
    · rw [Function.update_of_ne hk, h.made]
      omega
  · refine Each.append (fun k call' hk op hop => ?_) (fun op hop => ?_)
    · rw [hold k (List.getElem?_eq_some_iff.mp hk).1] at hop
      exact h.asking k call' hk op hop
    · rw [Function.update_self] at hop
      cases hop
      exact hsends
  · obtain ⟨op, hop, hframe⟩ := h.toDevice d hd
    exact ⟨op, by rwa [hold _ (hmade _ _ hop)], hframe⟩
  · obtain ⟨op, hop, i, hanswers⟩ := h.answers k pdu hk
    exact ⟨op, by rwa [hold _ (hmade _ _ hop)], i, hanswers⟩

theorem Tracked.not_performed (h : Tracked client start order c ops net) {i : Nat} {d : Datagram}
    (hd : net.toDevice[i]? = some d) : (c, d.tag) ∉ order.map Prod.fst := by
  intro hmem
  obtain ⟨⟨id, op⟩, hperformed, rfl⟩ := List.mem_map.mp hmem
  have htag : d.tag ∈ net.toDevice.map Datagram.tag :=
    List.mem_map_of_mem (List.mem_of_getElem? hd)
  exact (List.nodup_append.mp h.once.asked_nodup).2.2 d.tag htag d.tag
    (h.performed d.tag op hperformed) rfl

/-- **The device answers a request**, with what the operation says next. -/
theorem Tracked.answered (h : Tracked client start order c ops net) {i : Nat} {d : Datagram}
    {pdu : Bytes} {op : Call} (hd : net.toDevice[i]? = some d) (hop : op ∈ ops d.tag)
    (hs : client.step net (.answer i pdu) = some net')
    (htold : op.told (answering pdu) ()
      = .ok (Object.said Call.perform start order order.length op)) :
    Tracked client start (order ++ [((c, d.tag), op)]) c ops net' := by
  have hauth := h.authentic.step hs
  have honce := h.once.step hs
  have hwindowed := h.windowed.step (e := .answer i pdu) trivial trivial hs
  cases step_cases hs with
  | answers frame hi hframe =>
  rw [hd, Option.some.injEq] at hi
  subst hi
  refine ⟨hauth, honce, hwindowed, h.made, h.asking,
    fun d' hd' => h.toDevice d' (List.mem_of_mem_eraseIdx hd'), fun k pdu hk => ?_,
    fun k op' hk => ?_⟩
  · rcases List.mem_append.mp hk with hk | hk
    · obtain ⟨op', hop', j, hanswers⟩ := h.answers k pdu hk
      exact ⟨op', hop', j, hanswers.append _⟩
    · cases List.mem_singleton.mp hk
      refine ⟨op, hop, order.length, List.getElem?_concat_length, ?_⟩
      rw [htold, Object.said, Object.said, List.take_append_of_le_length (Nat.le_refl _)]
  · rw [List.map_append]
    rcases List.mem_append.mp hk with hk | hk
    · exact List.mem_append_left _ (h.performed k op' hk)
    · cases List.mem_singleton.mp hk
      exact List.mem_append_right _ (List.mem_singleton_self _)

theorem Tracked.other (h : Tracked client start order c ops net) {id : CallId} {op : Call}
    (hne : c ≠ id.1) : Tracked client start (order ++ [(id, op)]) c ops net := by
  refine { h with answers := fun k pdu hk => ?_, performed := fun k op' hk => ?_ }
  · obtain ⟨op', hop', i, hanswers⟩ := h.answers k pdu hk
    exact ⟨op', hop', i, hanswers.append _⟩
  · rcases List.mem_append.mp hk with hk | hk
    · exact h.performed k op' hk
    · cases List.mem_singleton.mp hk
      exact absurd rfl hne

end

/-! ### All clients -/

def Site.ops (s : Site) (c k : Nat) : Option Call := (s.history (c, k)).map Record.op

/-- The history says what the PDU tells the caller. -/
def Reported (history : CallId → Option (Record Call Told)) (id : CallId) (pdu : Bytes) : Prop :=
  ∃ r n told, history id = some r ∧ r.returned = some (n, told) ∧
    r.op.told (answering pdu) () = .ok told

structure Consistent (client : UdpClient) (start : Memory) (s : Site) : Prop where
  linearized : Linearized Call.perform start s.history s.order s.memory
  tracked : ∀ c, Tracked client start s.order c (s.ops c) (s.nets c)
  reported : ∀ c, Each (s.nets c).calls fun k call => ∀ pdu, call.phase.returned = some pdu →
    Reported s.history (c, k) pdu

variable {client : UdpClient} {start : Memory} {s s' : Site} {c : Nat} {net net' : Net}

theorem calls_of_returned {e : UdpClient.Event} (hs : client.step net e = some net')
    (he : ∀ k, e ≠ .recvSome k) : Each net'.calls fun k call => ∀ pdu,
      call.phase.returned = some pdu → net.calls[k]? = some call := by
  cases step_cases hs with
  | start req out =>
    exact Each.append (fun i call hi _ _ => hi) (fun pdu hpdu => by cases hpdu)
  | @drained k requestPdu out took hk hq =>
    refine Each.set (fun i call _ hi _ _ => hi) (fun pdu hpdu => ?_)
    have hnone := client.returned_onDrained requestPdu out
    cases hnone.symm.trans hpdu
  | drains hk hq =>
    exact Each.set (fun i call _ hi _ _ => hi) (fun pdu hpdu => by cases hpdu)
  | sends hk =>
    exact Each.set (fun i call _ hi _ _ => hi) (fun pdu hpdu => by cases hpdu)
  | receives hk hq => exact absurd rfl (he _)
  | throws hk hphase hfailed =>
    exact Each.set (fun i call _ hi _ _ => hi) (fun pdu hpdu => by cases hfailed.symm.trans hpdu)
  | answers | losesRequest | delivers | losesAnswer => exact fun i call hi _ _ => hi

/-- What is known of the calls of every client, when one client has gone on. -/
theorem tracked_update {P : Nat → Net → Prop} {nets : Nat → Net}
    (hP : ∀ c', c' ≠ c → P c' (nets c')) (hnet : P c net) :
    ∀ c', P c' (Function.update nets c net c') := by
  intro c'
  by_cases hc : c' = c
  · subst hc
    rwa [Function.update_self]
  · rw [Function.update_of_ne hc]
    exact hP c' hc

/-- An operation on a socket that is no receive, or something that the network does. -/
theorem Consistent.network (h : Consistent client start s) {e : UdpClient.Event}
    (hs : (client.step (s.nets c) e).map (s.setNet c) = some s')
    (hlate : NoLateAnswer (s.nets c) e) (hstart : ∀ req out, e ≠ .start req out)
    (hanswer : ∀ i pdu, e ≠ .answer i pdu) (hrecv : ∀ k, e ≠ .recvSome k) :
    Consistent client start s' := by
  obtain ⟨net, hnet, rfl⟩ := Option.map_eq_some_iff.mp hs
  refine ⟨h.linearized, ?_, ?_⟩
  · exact tracked_update (P := fun c' net => Tracked client start s.order c' (s.ops c') net)
      (fun c' _ => h.tracked c') ((h.tracked c).step hnet hlate hstart hanswer)
  · exact tracked_update (P := fun c' net => Each net.calls fun k call => ∀ pdu,
        call.phase.returned = some pdu → Reported s.history (c', k) pdu)
      (fun c' _ => h.reported c')
      (fun k call hk pdu hpdu => h.reported c k call
        (calls_of_returned hnet hrecv k call hk pdu hpdu) pdu hpdu)

/-! A receive. -/

theorem received_cases (s : Site) (c k : Nat) (net : Net) : s.received c k net = s.history ∨
    ∃ r told, s.history (c, k) = some r ∧ s.received c k net = Function.update s.history (c, k)
      (some { r with returned := some (s.order.length, told) }) := by
  unfold Site.received
  split
  · rename_i r pdu hr _
    split
    · exact Or.inr ⟨r, _, hr, rfl⟩
    · exact Or.inl rfl
  · exact Or.inl rfl

theorem received_of_ne (s : Site) (net : Net) {c k : Nat} {id : CallId} (hid : id ≠ (c, k)) :
    s.received c k net id = s.history id := by
  rcases received_cases s c k net with hsame | ⟨r, told, _, hupdate⟩
  · rw [hsame]
  · rw [hupdate, Function.update_of_ne hid]

theorem ops_received (s : Site) (c k : Nat) (net : Net) (id : CallId) :
    (s.received c k net id).map Record.op = (s.history id).map Record.op := by
  by_cases hid : id = (c, k)
  · subst hid
    rcases received_cases s c k net with hsame | ⟨r, told, hr, hupdate⟩
    · rw [hsame]
    · rw [hupdate, Function.update_self, hr]
      rfl
  · rw [received_of_ne s net hid]

/-- What a call that has its answer tells is what the device said, and the history records it. -/
theorem Tracked.received {k : Nat} {call : UdpClient.RunningCall} {pdu : Bytes}
    (htracked : Tracked client start s.order c (s.ops c) net)
    (hk : net.calls[k]? = some call) (hpdu : call.phase.returned = some pdu) :
    ∃ r i, s.history (c, k) = some r ∧ s.order[i]? = some ((c, k), r.op) ∧
      r.op.told (answering pdu) () = .ok (Object.said Call.perform start s.order i r.op) ∧
      s.received c k net = Function.update s.history (c, k) (some { r with
        returned := some (s.order.length, Object.said Call.perform start s.order i r.op) }) := by
  have hfresh := fresh_of_took_own htracked.authentic htracked.once htracked.windowed.own
  obtain ⟨op, hop, i, hi, htold⟩ := htracked.answers k pdu (hfresh k call hk pdu hpdu).2.1
  obtain ⟨r, hr, rfl⟩ := Option.map_eq_some_iff.mp hop
  refine ⟨r, i, hr, hi, htold, ?_⟩
  have hreturned : net.calls[k]?.bind (fun call => call.phase.returned) = some pdu := by
    rw [hk]
    exact hpdu
  unfold Site.received
  simp only [hr, hreturned, htold]

/-- **A client receives**: what the call tells is what the device said when it performed the
operation. -/
theorem Consistent.receive (h : Consistent client start s) {k : Nat}
    (hs : client.step (s.nets c) (.recvSome k) = some net) :
    Consistent client start { s.setNet c net with history := s.received c k net } := by
  have htracked := (h.tracked c).step hs trivial (by simp) (by simp)
  have hops : ∀ c', Site.ops { s.setNet c net with history := s.received c k net } c' = s.ops c' :=
    fun c' => funext fun k' => ops_received s c k net (c', k')
  refine ⟨?_, fun c' => ?_, fun c' => ?_⟩
  · show Linearized Call.perform start (s.received c k net) s.order s.memory
    cases hreturned : net.calls[k]?.bind (fun call => call.phase.returned) with
    | none =>
      have hsame : s.received c k net = s.history := by
        unfold Site.received
        rw [hreturned]
        cases s.history (c, k) <;> rfl
      rw [hsame]
      exact h.linearized
    | some pdu =>
      obtain ⟨call, hk, hpdu⟩ := Option.bind_eq_some_iff.mp hreturned
      obtain ⟨r, i, hr, hi, _, heq⟩ := htracked.received hk hpdu
      rw [heq]
      exact h.linearized.return hr hi
  · rw [hops]
    exact tracked_update (P := fun c' net => Tracked client start s.order c' (s.ops c') net)
      (fun c' _ => h.tracked c') htracked c'
  · refine tracked_update (P := fun c' net' => Each net'.calls fun k' call => ∀ pdu,
      call.phase.returned = some pdu → Reported (s.received c k net) (c', k') pdu)
      (fun c' hne k' call hk pdu hpdu => ?_) (fun k' call hk pdu hpdu => ?_) c'
    · rw [Reported, received_of_ne s net (fun heq => hne (Prod.mk.inj heq).1)]
      exact h.reported c' k' call hk pdu hpdu
    · by_cases hkk : k' = k
      · subst hkk
        obtain ⟨r, i, hr, hi, htold, heq⟩ := htracked.received hk hpdu
        rw [Reported, heq, Function.update_self]
        exact ⟨_, _, _, rfl, rfl, htold⟩
      · rw [Reported, received_of_ne s net (fun heq => hkk (Prod.mk.inj heq).2)]
        -- the other calls are as they were
        have hsame : Each net.calls fun i call => i ≠ k → (s.nets c).calls[i]? = some call := by
          cases step_cases hs with
          | receives hk hq =>
            exact Each.set (fun i call _ hi _ => hi) (fun hne => absurd rfl hne)
        exact h.reported c k' call (hsame k' call hk hkk) pdu hpdu

/-! A call, and an answer. -/

theorem ops_update (s s' : Site) (c k : Nat) (r : Record Call Told)
    (hs' : s'.history = Function.update s.history (c, k) (some r)) (c' : Nat) :
    s'.ops c' = if c' = c then Function.update (s.ops c) k (some r.op) else s.ops c' := by
  funext k'
  by_cases hid : (c', k') = (c, k)
  · cases hid
    simp [Site.ops, hs']
  · rw [Site.ops, hs', Function.update_of_ne hid]
    split
    · rename_i hc
      subst hc
      rw [Function.update_of_ne (fun hk => hid (congrArg (c', ·) hk))]
      rfl
    · rfl

/-- **A client makes a call.** -/
theorem Consistent.invoke (h : Consistent client start s) {call : Call} {req : Bytes}
    (hreq : call.request = some req)
    (hdone : Each (s.nets c).calls fun _ call => call.phase.IsDone)
    (hs : client.step (s.nets c) (.start req emptyPdu) = some net) :
    Consistent client start { s.setNet c net with
      history := Function.update s.history (c, (s.nets c).calls.length)
        (some ⟨call, s.order.length, none⟩) } := by
  have hnew : s.history (c, (s.nets c).calls.length) = none :=
    Option.map_eq_none_iff.mp (((h.tracked c).made _).mpr (Nat.le_refl _))
  have htracked := (h.tracked c).invoked (Call.request_eq_some.mp hreq) hdone hs
  refine ⟨h.linearized.invoke hnew call, fun c' => ?_, fun c' => ?_⟩
  · rw [ops_update s _ c _ _ rfl]
    refine tracked_update (P := fun c' net => Tracked client start s.order c' (if c' = c then
      Function.update (s.ops c) (s.nets c).calls.length (some call) else s.ops c') net)
      (fun c' hne => ?_) ?_ c'
    · rw [if_neg hne]
      exact h.tracked c'
    · rw [if_pos rfl]
      exact htracked
  · have hold : ∀ c' k pdu, (c', k) ≠ (c, (s.nets c).calls.length) →
        Reported s.history (c', k) pdu → Reported (Function.update s.history
          (c, (s.nets c).calls.length) (some ⟨call, s.order.length, none⟩)) (c', k) pdu := by
      intro c' k pdu hne hreported
      rwa [Reported, Function.update_of_ne hne]
    refine tracked_update (P := fun c' net => Each net.calls fun k call' => ∀ pdu,
      call'.phase.returned = some pdu → Reported (Function.update s.history
        (c, (s.nets c).calls.length) (some ⟨call, s.order.length, none⟩)) (c', k) pdu)
      (fun c' hne k call' hk pdu hpdu => ?_) (fun k call' hk pdu hpdu => ?_) c'
    · exact hold c' k pdu (fun heq => hne (Prod.mk.inj heq).1) (h.reported c' k call' hk pdu hpdu)
    · have hbefore := calls_of_returned hs (by simp) k call' hk pdu hpdu
      have hlt := (List.getElem?_eq_some_iff.mp hbefore).1
      exact hold c k pdu (fun heq => Nat.ne_of_lt hlt (Prod.mk.inj heq).2)
        (h.reported c k call' hbefore pdu hpdu)

/-- **The device takes a request**, performs its operation and answers. -/
theorem Consistent.serve (h : Consistent client start s) {i : Nat}
    (hs : step client s (.serve c i) = some s') : Consistent client start s' := by
  rw [step] at hs
  cases hd : (s.nets c).toDevice[i]? with
  | none =>
    rw [hd] at hs
    cases hs
  | some d =>
    obtain ⟨op, hop, req, hlen, hsends, hframe⟩ :=
      (h.tracked c).toDevice d (List.mem_of_getElem? hd)
    obtain ⟨r, hr, rfl⟩ := Option.map_eq_some_iff.mp hop
    obtain ⟨pdu, hrespond, hpdu, htold⟩ := Call.exists_respond hsends s.memory
    have hanswer := Device.onFrame_encode client.crc client.slaveId hlen (Nat.not_lt.mpr hpdu)
      hrespond
    rw [← hframe] at hanswer
    simp only [hd, hanswer, hr, RtuFrame.deserialize_encode] at hs
    obtain ⟨net, hnet, rfl⟩ := Option.map_eq_some_iff.mp hs
    have hsaid : r.op.told (answering pdu) ()
        = .ok (Object.said Call.perform start s.order s.order.length r.op) := by
      rw [htold _ _ (reply_answering hpdu req), Object.said, List.take_length,
        ← h.linearized.state]
    refine ⟨h.linearized.perform hr ((h.tracked c).not_performed hd), ?_, ?_⟩
    · exact tracked_update (P := fun c' net => Tracked client start
        (s.order ++ [((c, d.tag), r.op)]) c' (s.ops c') net)
        (fun c' hne => (h.tracked c').other hne) ((h.tracked c).answered hd hop hnet hsaid)
    · exact tracked_update (P := fun c' net => Each net.calls fun k call => ∀ pdu,
        call.phase.returned = some pdu → Reported s.history (c', k) pdu) (fun c' _ => h.reported c')
        (fun k call hk pdu' hpdu' => h.reported c k call
          (calls_of_returned hnet (by simp) k call hk pdu' hpdu') pdu' hpdu')

/-! ### Every run -/

theorem Consistent.step (h : Consistent client start s) {e : Event} (hguard : Guarded s e)
    (hs : step client s e = some s') : Consistent client start s' := by
  cases e with
  | invoke c call =>
    rw [Remote.step] at hs
    cases hreq : call.request with
    | none =>
      rw [hreq] at hs
      cases hs
      exact h
    | some req =>
      rw [hreq] at hs
      obtain ⟨net, hnet, rfl⟩ := Option.map_eq_some_iff.mp hs
      exact h.invoke hreq hguard hnet
  | serve c i => exact h.serve hs
  | client c e =>
    cases e with
    | start requestPdu out => cases hs
    | answer i pdu => cases hs
    | recvSome k =>
      obtain ⟨net, hnet, rfl⟩ := Option.map_eq_some_iff.mp hs
      exact h.receive hnet
    | loseRequest i =>
      exact h.network (e := .loseRequest i) hs hguard (by simp) (by simp) (by simp)
    | loseAnswer i =>
      exact h.network (e := .loseAnswer i) hs hguard (by simp) (by simp) (by simp)
    | recvNoblock | sendAllTo | throws | deliver =>
      exact h.network hs hguard (by simp) (by simp) (by simp)

end Remote

end Modbus
