import Modbus.Udp.Failures

/-!
# The course of a call

`operate` takes one socket operation after another.  This is the same call told as a whole, as it
is read in the source: the socket is drained, a frame is sent, a datagram is received, and at
most one thing goes wrong.

* `Took`: which course a call takes, and the state that it leaves the socket in.
* `finishes_iff_took`: operation by operation a call does what its course says.
* `finishes_or_drains`: it takes one course, unless datagrams keep on coming while it drains.
-/

namespace Modbus.UdpClient

open Phase

variable {σ : Type}

/-- What becomes of a call. -/
inductive Course
  | drainThrows
  | refused
  | sendThrows (thrown : IoFailure)
  | sendsShort
  | receiveThrows (thrown : IoFailure)
  | receives (responseSpan : Bytes)

def Course.ending (client : UdpClient) (responsePduOut : Bytes) : Course → Phase
  | drainThrows => .done .threw responsePduOut
  | refused => fail .kInvalidRequest responsePduOut
  | sendThrows thrown => fail thrown.clientError responsePduOut
  | sendsShort => fail .kTransportError responsePduOut
  | receiveThrows thrown => fail thrown.clientError responsePduOut
  | receives responseSpan => client.onResponse responsePduOut responseSpan

/-- The drain loop takes some datagrams, and then `RecvNoblock` throws. -/
inductive DrainThrows (ops : SocketOps σ) : σ → σ → Prop
  | throws {s s' : σ} {r : IoResult (Option Bytes)} {thrown : IoFailure}
      (h : ops.recvNoblock RtuFrame.kMaxFrameSize s = (r, s')) (hr : r.failure = some thrown) :
      DrainThrows ops s s'
  | datagram {s mid s' : σ} {d : Bytes}
      (h : ops.recvNoblock RtuFrame.kMaxFrameSize s = (.ok (some d), mid))
      (rest : DrainThrows ops mid s') : DrainThrows ops s s'

def requestAdu (client : UdpClient) {req : Bytes} (h : ¬ req.length > kMaxPduSize) : Bytes :=
  RtuFrame.encode client.crc ⟨client.slaveId, req, h⟩

/-- From the socket state `s` a call takes a course, to another state. -/
inductive Took (client : UdpClient) (ops : SocketOps σ) (req : Bytes) (s : σ) :
    Course → σ → Prop
  | drainThrows {s' : σ} (h : DrainThrows ops s s') : Took client ops req s .drainThrows s'
  | refused {s' : σ} (h : Drained ops s s') (hreq : req.length > kMaxPduSize) :
      Took client ops req s .refused s'
  | sendThrows {s₁ s' : σ} {r : IoResult Nat} {thrown : IoFailure} (h : Drained ops s s₁)
      (hreq : ¬ req.length > kMaxPduSize)
      (hsend : ops.sendAllTo (client.requestAdu hreq) s₁ = (r, s'))
      (hr : r.failure = some thrown) : Took client ops req s (.sendThrows thrown) s'
  | sendsShort {s₁ s' : σ} {k : Nat} (h : Drained ops s s₁) (hreq : ¬ req.length > kMaxPduSize)
      (hsend : ops.sendAllTo (client.requestAdu hreq) s₁ = (.ok k, s'))
      (hk : k ≠ (client.requestAdu hreq).length) : Took client ops req s .sendsShort s'
  | receiveThrows {s₁ s₂ s' : σ} {r : IoResult Bytes} {thrown : IoFailure} (h : Drained ops s s₁)
      (hreq : ¬ req.length > kMaxPduSize)
      (hsend : ops.sendAllTo (client.requestAdu hreq) s₁
        = (.ok (client.requestAdu hreq).length, s₂))
      (hrecv : ops.recvSome RtuFrame.kMaxFrameSize s₂ = (r, s')) (hr : r.failure = some thrown) :
      Took client ops req s (.receiveThrows thrown) s'
  | receives {s₁ s₂ s' : σ} {responseSpan : Bytes} (h : Drained ops s s₁)
      (hreq : ¬ req.length > kMaxPduSize)
      (hsend : ops.sendAllTo (client.requestAdu hreq) s₁
        = (.ok (client.requestAdu hreq).length, s₂))
      (hrecv : ops.recvSome RtuFrame.kMaxFrameSize s₂ = (.ok responseSpan, s')) :
      Took client ops req s (.receives responseSpan) s'

variable {client : UdpClient} {ops : SocketOps σ} {outcome : Outcome} {req adu out out' : Bytes}
  {s s₁ s' s'' : σ} {course : Course}

theorem finishes_of_drainThrows (h : DrainThrows ops s s₁) :
    Finishes client ops (start req out, s) outcome out' s' ↔
      Finishes client ops (.done .threw out, s₁) outcome out' s' := by
  induction h with
  | throws h hr => rw [start, finishes_recvNoblock h, onRecvNoblock_of_failure hr]
  | datagram h rest ih => rw [start, finishes_recvNoblock h, onRecvNoblock, ← ih, start]

/-! ### As a whole -/

theorem onDrained_eq (client : UdpClient) (h : ¬ req.length > kMaxPduSize) (out : Bytes) :
    client.onDrained req out = .sendAllTo (client.requestAdu h) out := client.onDrained_of_le h out

theorem onSendAllTo_of_ne {k : Nat} (h : k ≠ adu.length) :
    onSendAllTo adu out (.ok k) = fail .kTransportError out := if_pos h

theorem onSendAllTo_length (adu out : Bytes) :
    onSendAllTo adu out (.ok adu.length) = .recvSome out := if_neg (not_not.mpr rfl)

theorem Course.ending_isDone (client : UdpClient) (out : Bytes) (course : Course) :
    ∃ outcome out', course.ending client out = .done outcome out' := by
  cases course with
  | receives responseSpan => exact client.onResponse_isDone out responseSpan
  | _ => exact ⟨_, _, rfl⟩

/-- **A call does what its course says.** -/
theorem Took.finishes (h : Took client ops req s course s') :
    Finishes client ops (start req out, s) outcome out' s'' ↔
      Finishes client ops (course.ending client out, s') outcome out' s'' := by
  cases h with
  | drainThrows h => rw [finishes_of_drainThrows h, Course.ending]
  | refused h hreq =>
    rw [finishes_of_drained h, onDrained, RtuFrame.create, dif_pos hreq, Course.ending]
  | sendThrows h hreq hsend hr =>
    rw [finishes_of_drained h, onDrained_eq client hreq, finishes_sendAllTo hsend,
      onSendAllTo_of_failure hr, Course.ending]
  | sendsShort h hreq hsend hk =>
    rw [finishes_of_drained h, onDrained_eq client hreq, finishes_sendAllTo hsend,
      onSendAllTo_of_ne hk, Course.ending]
  | receiveThrows h hreq hsend hrecv hr =>
    rw [finishes_of_drained h, onDrained_eq client hreq, finishes_sendAllTo hsend,
      onSendAllTo_length, finishes_recvSome hrecv, onRecvSome_of_failure hr, Course.ending]
  | receives h hreq hsend hrecv =>
    rw [finishes_of_drained h, onDrained_eq client hreq, finishes_sendAllTo hsend,
      onSendAllTo_length, finishes_recvSome hrecv, onRecvSome, Course.ending]

theorem IoResult.failure_cases {α : Type} (r : IoResult α) :
    (∃ a, r = .ok a) ∨ ∃ thrown, r.failure = some thrown := by
  cases r with
  | ok a => exact Or.inl ⟨a, rfl⟩
  | ioTimeout => exact Or.inr ⟨.timeout, rfl⟩
  | ioException => exact Or.inr ⟨.other, rfl⟩

/-- Once the socket is drained there is nothing left to wait for. -/
theorem exists_took_of_drained (client : UdpClient) (req : Bytes) (h : Drained ops s s₁) :
    ∃ course s', Took client ops req s course s' := by
  by_cases hreq : req.length > kMaxPduSize
  · exact ⟨_, _, .refused h hreq⟩
  · rcases hsend : ops.sendAllTo (client.requestAdu hreq) s₁ with ⟨r, s₂⟩
    rcases IoResult.failure_cases r with ⟨k, rfl⟩ | ⟨thrown, hr⟩
    · by_cases hk : k = (client.requestAdu hreq).length
      · subst hk
        rcases hrecv : ops.recvSome RtuFrame.kMaxFrameSize s₂ with ⟨r, s'⟩
        rcases IoResult.failure_cases r with ⟨d, rfl⟩ | ⟨thrown, hr⟩
        · exact ⟨_, _, .receives h hreq hsend hrecv⟩
        · exact ⟨_, _, .receiveThrows h hreq hsend hrecv hr⟩
      · exact ⟨_, _, .sendsShort h hreq hsend hk⟩
    · exact ⟨_, _, .sendThrows h hreq hsend hr⟩

/-! ### The drain loop -/

def drainPass (ops : SocketOps σ) (s : σ) : σ := (ops.recvNoblock RtuFrame.kMaxFrameSize s).2

/-- Whenever the drain loop looks for a datagram it finds one. -/
def DrainsForever (ops : SocketOps σ) (s : σ) : Prop :=
  ∀ n, ∃ d, (ops.recvNoblock RtuFrame.kMaxFrameSize ((drainPass ops)^[n] s)).1 = .ok (some d)

theorem drainPass_eq {r : IoResult (Option Bytes)}
    (h : ops.recvNoblock RtuFrame.kMaxFrameSize s = (r, s₁)) : drainPass ops s = s₁ :=
  congrArg Prod.snd h

theorem drainsForever_iff {d : Bytes}
    (h : ops.recvNoblock RtuFrame.kMaxFrameSize s = (.ok (some d), s₁)) :
    DrainsForever ops s ↔ DrainsForever ops s₁ := by
  constructor
  · intro hs n
    have hn := hs (n + 1)
    rwa [Function.iterate_succ_apply, drainPass_eq h] at hn
  · intro hs n
    cases n with
    | zero => exact ⟨d, congrArg Prod.fst h⟩
    | succ n =>
      rw [Function.iterate_succ_apply, drainPass_eq h]
      exact hs n

/-- **The drain loop ends where it does not find a datagram**, after `n` of them. -/
theorem drained_or_throws (n : Nat) {s : σ}
    (h : ¬ ∃ d, (ops.recvNoblock RtuFrame.kMaxFrameSize ((drainPass ops)^[n] s)).1
      = .ok (some d)) : (∃ s', Drained ops s s') ∨ ∃ s', DrainThrows ops s s' := by
  induction n generalizing s with
  | zero =>
    rcases hop : ops.recvNoblock RtuFrame.kMaxFrameSize s with ⟨r, mid⟩
    rcases IoResult.failure_cases r with ⟨r, rfl⟩ | ⟨thrown, hr⟩
    · cases r with
      | none => exact Or.inl ⟨mid, .empty hop⟩
      | some d => exact absurd ⟨d, congrArg Prod.fst hop⟩ h
    · exact Or.inr ⟨mid, .throws hop hr⟩
  | succ n ih =>
    rcases hop : ops.recvNoblock RtuFrame.kMaxFrameSize s with ⟨r, mid⟩
    rcases IoResult.failure_cases r with ⟨r, rfl⟩ | ⟨thrown, hr⟩
    · cases r with
      | none => exact Or.inl ⟨mid, .empty hop⟩
      | some d =>
        rw [Function.iterate_succ_apply, drainPass_eq hop] at h
        rcases ih h with ⟨s', hs'⟩ | ⟨s', hs'⟩
        · exact Or.inl ⟨s', .datagram hop hs'⟩
        · exact Or.inr ⟨s', .datagram hop hs'⟩
    · exact Or.inr ⟨mid, .throws hop hr⟩

theorem not_drainsForever_of_drained (h : Drained ops s s') : ¬ DrainsForever ops s := by
  induction h with
  | @empty s s' h =>
    intro hs
    obtain ⟨d, hd⟩ := hs 0
    have hnone := congrArg Prod.fst h
    cases hd.symm.trans hnone
  | datagram h rest ih => exact fun hs => ih ((drainsForever_iff h).mp hs)

theorem not_drainsForever_of_throws (h : DrainThrows ops s s') : ¬ DrainsForever ops s := by
  induction h with
  | throws h hr =>
    intro hs
    obtain ⟨d, hd⟩ := hs 0
    obtain rfl := hd.symm.trans (congrArg Prod.fst h)
    cases hr
  | datagram h rest ih => exact fun hs => ih ((drainsForever_iff h).mp hs)

theorem Took.not_drainsForever (h : Took client ops req s course s') : ¬ DrainsForever ops s := by
  cases h with
  | drainThrows h => exact not_drainsForever_of_throws h
  | refused h | sendThrows h | sendsShort h | receiveThrows h | receives h =>
    exact not_drainsForever_of_drained h

theorem exists_took (client : UdpClient) (req : Bytes) (h : ¬ DrainsForever ops s) :
    ∃ course s', Took client ops req s course s' := by
  obtain ⟨n, hn⟩ := not_forall.mp h
  rcases drained_or_throws n hn with ⟨s₁, hs⟩ | ⟨s', hs⟩
  · exact exists_took_of_drained client req hs
  · exact ⟨_, _, .drainThrows hs⟩

theorem iterate_of_drainsForever (client : UdpClient) (req out : Bytes)
    (h : DrainsForever ops s) (n : Nat) : ∃ s',
    (client.operate ops)^[n] (start req out, s) = (start req out, s') := by
  induction n generalizing s with
  | zero => exact ⟨s, rfl⟩
  | succ n ih =>
    obtain ⟨d, hd⟩ := h 0
    have hop : ops.recvNoblock RtuFrame.kMaxFrameSize s = (.ok (some d), drainPass ops s) :=
      Prod.ext hd rfl
    rw [Function.iterate_succ_apply, start, operate, hop]
    exact ih ((drainsForever_iff hop).mp h)

/-! ### Both -/

/-- **A call takes a course, or drains forever.**  Operation by operation it comes to an end exactly
when it takes a course, and then to that course's end; and it takes one unless the drain loop finds
a datagram whenever it looks for one. -/
theorem finishes_or_drains (client : UdpClient) {σ : Type} (ops : SocketOps σ) (req out : Bytes)
    (s : σ) :
    (∀ outcome out' s', Finishes client ops (start req out, s) outcome out' s' ↔
      ∃ course, Took client ops req s course s' ∧
        course.ending client out = .done outcome out') ∧
    ((∃ course s', Took client ops req s course s') ↔ ¬ DrainsForever ops s) ∧
    (DrainsForever ops s → ∀ n, ∃ s',
      (client.operate ops)^[n] (start req out, s) = (start req out, s')) := by
  refine ⟨fun outcome out' s' => ⟨fun h => ?_, ?_⟩, ⟨?_, exists_took client req⟩,
    client.iterate_of_drainsForever req out⟩
  · have hends : ¬ DrainsForever ops s := by
      intro hforever
      obtain ⟨n, hn⟩ := h
      obtain ⟨s₁, hs₁⟩ := client.iterate_of_drainsForever req out hforever n
      cases hs₁.symm.trans hn
    obtain ⟨course, s₁, htook⟩ := exists_took client req hends
    obtain ⟨outcome₁, out₁, hdone⟩ := course.ending_isDone client out
    rw [htook.finishes, hdone, finishes_done] at h
    obtain ⟨rfl, rfl, rfl⟩ := h
    exact ⟨course, htook, hdone⟩
  · rintro ⟨course, htook, hdone⟩
    rw [htook.finishes, hdone]
    exact finishes_done.mpr ⟨rfl, rfl, rfl⟩
  · rintro ⟨course, s', htook⟩
    exact htook.not_drainsForever

end Modbus.UdpClient
