import RobotBridge.Proofs.Session.Errands
import RobotBridge.Robot

/-! Stopping the robot: the wheels are halted first, and only a call that has halted them tells the
controller to drop its goal. Under any schedule a call that fails on the way goes no further, and one that
returns `ok` has sent both commands. -/
namespace RobotBridge
open Exchange (publishReply)

namespace Session

variable {α : Type} {timeout : Duration} {s : Session α} {log : Log α} {start n id : Nat}
  {channel frame : String} {next : Except CallError Unit → Script α}

/-- What a publish on a line has returned, if it has: what its connection has said, or that its time is up. -/
def published (timeout : Duration) (channel : String) (n : Nat) (log : Log α) : Option (Except CallError Unit) :=
  match publishReply channel (yielded n log) with
  | some result => some result
  | none => if expiries n log = [] then none else some (.error (.timeout channel timeout))

private theorem EndToEnd.returned_eq (h : EndToEnd timeout s log start n id channel frame (publishReply channel) next) :
    Session.returned n log = ((published timeout channel n log).map next).toList := by
  rw [h.returned, published]
  cases publishReply channel (yielded n log) with
  | some => rfl
  | none =>
    dsimp only
    split <;> rfl

/-- A publish that has returned `ok` has sent its frame and then closed. -/
private theorem EndToEnd.queued_of_ok
    (h : EndToEnd timeout s log start n id channel frame (publishReply channel) next)
    (hok : published timeout channel n log = some (.ok ())) :
    Session.queued n log = [.send frame, .close CloseCode.normal] := by
  have hreturned : Session.returned n log ≠ [] := by
    rw [h.returned_eq, hok]
    exact List.cons_ne_nil _ _
  have hreply : publishReply channel (yielded n log) = some (.ok ()) := by
    unfold published at hok
    split at hok
    · next hreply => exact hreply.trans hok
    · split at hok <;> cases hok
  obtain ⟨es, e, rest, hes, he, hquiet⟩ := List.findSome?_eq_some_iff.mp hreply
  obtain rfl : e = .opened := by cases e <;> simp_all
  -- The connection has yielded nothing after the opening that settled the publish.
  obtain rfl : rest = [] := by
    cases rest with
    | nil => rfl
    | cons later rest =>
      have hnone := h.undecided (es ++ [.opened]) later rest (by rw [hes]; simp)
      have hsome : publishReply channel (es ++ [.opened]) = some (.ok ()) :=
        List.findSome?_eq_some_iff.mpr ⟨es, .opened, [], rfl, rfl, hquiet⟩
      rw [hnone] at hsome
      contradiction
  have hlive : (yielded n log).any Event.isTerminal = false := by
    rw [hes, List.any_append, List.any_eq_false.mpr fun e hm => ?_]
    · rfl
    · have := hquiet e hm
      cases e <;> simp_all [Event.isTerminal]
  rw [h.queued, if_pos (by rw [hes]; simp), if_neg (by simp [hreturned, hlive])]
  rfl

end Session

namespace Robot
open Session

/-- The frame that halts the wheels: a velocity command whose every component is zero. -/
def haltFrame : String :=
  (Envelope.publish "MBOT_VEL_CMD" "twist2D_t"
    (.object [("vx", .double .zero), ("vy", .double .zero), ("wz", .double .zero)])).encode

/-- The frame that makes the controller drop its goal: a path without poses. -/
def dropGoalFrame : String :=
  (Envelope.publish "CONTROLLER_PATH" "path2D_t" (.object [("path", .array []), ("path_length", .integer 0)])).encode

variable {α : Type} {timeout : Duration} {s : Session α} {r : Record α} {log : Log α} {id : Nat}
  {wrap : Except CallError Unit → α} {ns : List Nat} {current : Script α} {a : α}

/-! ### From one publish to the other -/

private def halted (wrap : Except CallError Unit → α) : Except CallError Unit → Script α
  | .ok () =>
    .publish Channel.controllerPath.wireName Channel.controllerPath.dtype Path.empty.form.toJson fun result =>
      .finish (wrap result)
  | .error e => .finish (wrap (.error e))

private structure Publishing (timeout : Duration) (s : Session α) (log : Log α) (id : Nat) (channel frame : String)
    (n : Nat) (result : Option (Except CallError Unit)) : Prop where
  life : ∃ start next, EndToEnd timeout s log start n id channel frame (publishReply channel) next
  result : published timeout channel n log = result

private inductive Stopping (timeout : Duration) (s : Session α) (log : Log α) (id : Nat)
    (wrap : Except CallError Unit → α) : List Nat → Stage α → Prop
  | made : Stopping timeout s log id wrap [] (.ready (wrap <$> stop.run))
  | halting {n x deadline next} : Publishing timeout s log id "MBOT_VEL_CMD" haltFrame n none →
      Stopping timeout s log id wrap [n] (.exchanging n x deadline next)
  | halted {n} : Publishing timeout s log id "MBOT_VEL_CMD" haltFrame n (some (.ok ())) →
      Stopping timeout s log id wrap [n] (.ready (halted wrap (.ok ())))
  | failed {n e stage} : Publishing timeout s log id "MBOT_VEL_CMD" haltFrame n (some (.error e)) →
      stage = .ready (.finish (wrap (.error e))) ∨ stage = .done (wrap (.error e)) →
      Stopping timeout s log id wrap [n] stage
  | dropping {n m x deadline next} : Publishing timeout s log id "MBOT_VEL_CMD" haltFrame n (some (.ok ())) →
      Publishing timeout s log id "CONTROLLER_PATH" dropGoalFrame m none →
      Stopping timeout s log id wrap [n, m] (.exchanging m x deadline next)
  | ended {n m result stage} : Publishing timeout s log id "MBOT_VEL_CMD" haltFrame n (some (.ok ())) →
      Publishing timeout s log id "CONTROLLER_PATH" dropGoalFrame m (some result) →
      stage = .ready (.finish (wrap result)) ∨ stage = .done (wrap result) →
      Stopping timeout s log id wrap [n, m] stage

private theorem Publishing.openings_eq {channel frame : String} {n : Nat} {result : Option (Except CallError Unit)}
    (h : Publishing timeout s log id channel frame n result) : openings n log = [(.call id, channel)] := by
  obtain ⟨_, _, hlife⟩ := h.life
  exact hlife.own.1

private theorem Publishing.queued_eq {channel frame : String} {n : Nat}
    (h : Publishing timeout s log id channel frame n (some (.ok ()))) :
    queued n log = [.send frame, .close CloseCode.normal] := by
  obtain ⟨_, _, hlife⟩ := h.life
  exact hlife.queued_of_ok h.result

private theorem Stopping.lines {stage : Stage α} (h : Stopping timeout s log id wrap ns stage) :
    ns = [] ∨ (∃ n, ns = [n] ∧ openings n log = [(.call id, "MBOT_VEL_CMD")]) ∨
      ∃ n m, ns = [n, m] ∧ openings n log = [(.call id, "MBOT_VEL_CMD")] ∧
        openings m log = [(.call id, "CONTROLLER_PATH")] := by
  cases h with
  | made => exact .inl rfl
  | halting hfirst | halted hfirst | failed hfirst _ => exact .inr (.inl ⟨_, rfl, hfirst.openings_eq⟩)
  | dropping hfirst hsecond | ended hfirst hsecond _ =>
    exact .inr (.inr ⟨_, _, rfl, hfirst.openings_eq, hsecond.openings_eq⟩)

end Robot

end RobotBridge
