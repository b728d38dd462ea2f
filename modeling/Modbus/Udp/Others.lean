import Modbus.Library.Machine
import Modbus.Udp.Network

/-!
# Datagrams of other hosts

The socket of a client is bound to no peer, and `RecvSome` does not say where a datagram
comes from.  Here any number of calls are under way on one client, the device at its endpoint
sends what it likes, and so does everyone else.

* `step_withoutOthers`, `withoutOthers_eq`: what a step does to what the device has sent.
* `independent_of_undisturbed`: as long as no `RecvSome` finds the datagram of another host
  first, all calls go as if there were no others.
* `not_independent_forged`: a frame that someone else sends in time is taken for the answer.
-/

namespace Modbus.UdpClient

open Machine Phase

variable {Host : Type}

/-- A datagram at the socket, and where it comes from. -/
structure Arrival (Host : Type) where
  sender : Host
  bytes : Bytes

/-- The calls on a client, and what has arrived at its socket, in order. -/
structure Inbox (Host : Type) where
  calls : List Phase
  queue : List (Arrival Host)

namespace Inbox

inductive Event (Host : Type)
  /-- A call is made. -/
  | start (requestPdu responsePduOut : Bytes)
  | recvNoblock (k : Nat)
  /-- `SendAllTo` reports `n` bytes. -/
  | sendAllTo (k n : Nat)
  | recvSome (k : Nat)
  /-- The next operation of call `k` ends in `IoTimeout`, or in `IoException`. -/
  | throws (k : Nat) (timeout : Bool)
  | arrive (d : Arrival Host)

def init : Inbox Host := ⟨[], []⟩

def proceed (s : Inbox Host) (k : Nat) (phase : Phase) : Inbox Host :=
  { s with calls := s.calls.set k phase }

/-- Nothing looks at the sender. -/
def step (client : UdpClient) (s : Inbox Host) : Event Host → Option (Inbox Host)
  | .start requestPdu responsePduOut =>
    some { s with calls := s.calls ++ [UdpClient.start requestPdu responsePduOut] }
  | .recvNoblock k =>
    match s.calls[k]?, s.queue with
    | some (.recvNoblock requestPdu out), [] =>
      some (s.proceed k (client.onRecvNoblock requestPdu out (.ok none)))
    | some (.recvNoblock requestPdu out), d :: queue =>
      some { s.proceed k (client.onRecvNoblock requestPdu out
          (.ok (some (d.bytes.take RtuFrame.kMaxFrameSize)))) with queue := queue }
    | _, _ => none
  | .sendAllTo k n =>
    match s.calls[k]? with
    | some (.sendAllTo requestAdu out) => some (s.proceed k (onSendAllTo requestAdu out (.ok n)))
    | _ => none
  | .recvSome k =>
    match s.calls[k]?, s.queue with
    | some (.recvSome out), d :: queue =>
      some { s.proceed k (client.onRecvSome out (.ok (d.bytes.take RtuFrame.kMaxFrameSize))) with
        queue := queue }
    | _, _ => none
  | .throws k timeout =>
    match s.calls[k]? with
    | some phase => (client.onThrown timeout phase).map (s.proceed k)
    | none => none
  | .arrive d => some { s with queue := s.queue ++ [d] }

/-! ### The same run without the others -/

variable [DecidableEq Host] (endpoint : Host)

/-- Whether the first datagram, if there is one, is the device's. -/
def firstIsOwn (s : Inbox Host) : Bool := s.queue.head?.all (fun d => d.sender = endpoint)

/-- What is left of a run when the datagrams of others are deleted: they do not arrive, and
no drain takes them. -/
def keeps (s : Inbox Host) : Event Host → Bool
  | .recvNoblock _ => s.firstIsOwn endpoint
  | .arrive d => d.sender = endpoint
  | _ => true

def deleteOthers (client : UdpClient) (events : List (Event Host)) : List (Event Host) :=
  erase (step client) (keeps endpoint) init events

def own (queue : List (Arrival Host)) : List (Arrival Host) :=
  queue.filter (fun d => d.sender = endpoint)

/-- What is left on the socket. -/
def withoutOthers (s : Inbox Host) : Inbox Host := { s with queue := own endpoint s.queue }

def Free (_ : Inbox Host) (_ : Event Host) : Prop := True

instance (s : Inbox Host) (e : Event Host) : Decidable (Free s e) := isTrue trivial

/-- Whoever else sends what and when: the run without them is a run, and in the end every
call stands where it stands with them. -/
def Independent (client : UdpClient) (events : List (Event Host)) : Prop :=
  ∀ s, exec (step client) Free init events = some s →
    ∃ s', exec (step client) Free init (deleteOthers endpoint client events) = some s' ∧
      s'.calls = s.calls

/-- `RecvSome` does not find the datagram of another host first. -/
def Undisturbed (s : Inbox Host) : Event Host → Prop
  | .recvSome _ => s.firstIsOwn endpoint = true
  | _ => True

instance (s : Inbox Host) : DecidablePred (Undisturbed endpoint s)
  | .recvSome _ => inferInstanceAs (Decidable (s.firstIsOwn endpoint = true))
  | .start _ _ | .recvNoblock _ | .sendAllTo _ _ | .throws _ _ | .arrive _ => isTrue trivial

variable {endpoint} {client : UdpClient} {s s' : Inbox Host} {e : Event Host}

section

variable {d : Arrival Host} {queue : List (Arrival Host)}

theorem firstIsOwn_cons (hq : s.queue = d :: queue) :
    s.firstIsOwn endpoint = decide (d.sender = endpoint) := by
  rw [firstIsOwn, hq]
  rfl

theorem own_nil : own endpoint [] = [] := rfl

theorem own_cons_of_eq (h : d.sender = endpoint) :
    own endpoint (d :: queue) = d :: own endpoint queue :=
  List.filter_cons_of_pos (decide_eq_true h)

theorem own_cons_of_ne (h : d.sender ≠ endpoint) :
    own endpoint (d :: queue) = own endpoint queue :=
  List.filter_cons_of_neg (by simpa using h)

theorem own_append (queue' : List (Arrival Host)) :
    own endpoint (queue ++ queue') = own endpoint queue ++ own endpoint queue' :=
  List.filter_append ..

end

/-- **A step that is left** is the same without the others. -/
theorem step_withoutOthers (hguard : Undisturbed endpoint s e) (hkeep : s.keeps endpoint e = true)
    (h : step client s e = some s') :
    step client (s.withoutOthers endpoint) e = some (s'.withoutOthers endpoint) := by
  cases e with
  | start requestPdu out =>
    cases h
    rfl
  | recvNoblock k =>
    rw [step] at h
    split at h
    · rename_i hk hq
      cases h
      simp only [step, withoutOthers, proceed, hk, hq, own_nil]
    · rename_i requestPdu out d queue hk hq
      cases h
      rw [keeps, firstIsOwn_cons hq, decide_eq_true_iff] at hkeep
      simp only [step, withoutOthers, proceed, hk, hq, own_cons_of_eq hkeep]
    · cases h
  | sendAllTo k n =>
    rw [step] at h
    split at h
    · rename_i hk
      cases h
      simp only [step, withoutOthers, proceed, hk]
    · cases h
  | recvSome k =>
    rw [step] at h
    split at h
    · rename_i out d queue hk hq
      cases h
      rw [Undisturbed, firstIsOwn_cons hq, decide_eq_true_iff] at hguard
      simp only [step, withoutOthers, proceed, hk, hq, own_cons_of_eq hguard]
    · cases h
  | throws k timeout =>
    rw [step] at h
    split at h
    · rename_i phase hk
      obtain ⟨phase', hphase', rfl⟩ := Option.map_eq_some_iff.mp h
      simp only [step, withoutOthers, proceed, hk, hphase', Option.map_some]
    · cases h
  | arrive d =>
    cases h
    rw [keeps, decide_eq_true_iff] at hkeep
    simp only [step, withoutOthers, own_append, own_cons_of_eq hkeep, own_nil]

/-- **A step that is deleted** makes no difference without the others. -/
theorem withoutOthers_eq (hdrop : s.keeps endpoint e = false) (h : step client s e = some s') :
    s'.withoutOthers endpoint = s.withoutOthers endpoint := by
  cases e with
  | recvNoblock k =>
    rw [step] at h
    split at h
    · rename_i hk hq
      rw [keeps, firstIsOwn, hq] at hdrop
      cases hdrop
    · rename_i requestPdu out d queue hk hq
      cases h
      rw [keeps, firstIsOwn_cons hq, decide_eq_false_iff_not] at hdrop
      -- the drain goes on where it was
      have hcalls : s.calls.set k (.recvNoblock requestPdu out) = s.calls := by
        obtain ⟨hlt, hget⟩ := List.getElem?_eq_some_iff.mp hk
        rw [← hget, List.set_getElem_self]
      simp only [withoutOthers, proceed, onRecvNoblock, hcalls, hq, own_cons_of_ne hdrop]
    · cases h
  | arrive d =>
    cases h
    rw [keeps, decide_eq_false_iff_not] at hdrop
    simp only [withoutOthers, own_append, own_cons_of_ne hdrop, own_nil, List.append_nil]
  | start requestPdu out => cases hdrop
  | sendAllTo k n => cases hdrop
  | recvSome k => cases hdrop
  | throws k timeout => cases hdrop

/-- **Other hosts make no difference** as long as no `RecvSome` finds a datagram of theirs
first: they may send anything before a call, between its operations, and behind the answer
of the device. -/
theorem independent_of_undisturbed {Host : Type} [DecidableEq Host] (endpoint : Host)
    (client : UdpClient) (events : List (Event Host))
    (h : (exec (step client) (Undisturbed endpoint) init events).isSome) :
    Independent endpoint client events := by
  intro s hs
  obtain ⟨s', hrun⟩ := Option.isSome_iff_exists.mp h
  obtain rfl : s = s' :=
    Option.some.inj (hs.symm.trans (exec_mono (fun _ _ _ => trivial) hrun))
  refine ⟨s.withoutOthers endpoint, ?_, rfl⟩
  exact exec_erase (fun hguard hkeep hstep => ⟨trivial, step_withoutOthers hguard hkeep hstep⟩)
    (fun _ hdrop hstep => withoutOthers_eq hdrop hstep) hrun

/-! ### Two runs

The device is host `0`.  It answers a call that reads one register. -/

/-- Host `1` sends before the call and while it drains, host `2` sends a frame behind the
answer, and the next call drains it before it times out. -/
def drainedOthers : List (Event Nat) :=
  [.arrive ⟨1, [0xFF]⟩, .start [3, 0, 0, 0, 1] [0, 0, 0, 0], .recvNoblock 0, .arrive ⟨1, []⟩,
    .recvNoblock 0, .recvNoblock 0, .sendAllTo 0 8, .arrive ⟨0, [1, 3, 2, 0, 7, 0xF9, 0x86]⟩,
    .arrive ⟨2, [1, 3, 2, 0, 9, 0x78, 0x42]⟩, .recvSome 0, .start [3, 0, 0, 0, 1] [0, 0, 0, 0],
    .recvNoblock 1, .recvNoblock 1, .sendAllTo 1 8, .throws 1 true]

theorem independent_drainedOthers : Independent 0 slaveOne drainedOthers :=
  independent_of_undisturbed 0 slaveOne drainedOthers (by decide +kernel)

/-- Host `1` sends a frame between the drain and the answer. -/
def forged : List (Event Nat) :=
  [.start [3, 0, 0, 0, 1] [0, 0, 0, 0], .recvNoblock 0, .sendAllTo 0 8,
    .arrive ⟨1, [1, 3, 2, 0, 9, 0x78, 0x42]⟩, .arrive ⟨0, [1, 3, 2, 0, 7, 0xF9, 0x86]⟩,
    .recvSome 0]

def returned (s : Inbox Host) : List (Option Bytes) := s.calls.map Phase.returned

/-- The frame of host `1` is returned, and without it the device's answer would be. -/
theorem not_independent_forged :
    (exec (step slaveOne) Free init forged).map returned = some [some [3, 2, 0, 9]] ∧
      (exec (step slaveOne) Free init (deleteOthers 0 slaveOne forged)).map returned
        = some [some [3, 2, 0, 7]] ∧
      ¬ Independent 0 slaveOne forged := by
  have hforged : (exec (step slaveOne) Free init forged).map returned
      = some [some [3, 2, 0, 9]] := by decide +kernel
  have hanswer : (exec (step slaveOne) Free init (deleteOthers 0 slaveOne forged)).map returned
      = some [some [3, 2, 0, 7]] := by decide +kernel
  refine ⟨hforged, hanswer, fun h => ?_⟩
  obtain ⟨s, hs, hreturned⟩ := Option.map_eq_some_iff.mp hforged
  obtain ⟨s', hs', hcalls⟩ := h s hs
  rw [hs', Option.map_some, Option.some.injEq, returned, hcalls, ← returned, hreturned] at hanswer
  cases hanswer

end Inbox

end Modbus.UdpClient
