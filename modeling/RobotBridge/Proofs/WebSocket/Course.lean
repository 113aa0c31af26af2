import RobotBridge.Proofs.Connection.Contract
import RobotBridge.Proofs.WebSocket.Transport
import RobotBridge.WebSocket.Task

/-! Courses of a connection's task step by step: what can be found out on the line, and what the task does
about it. -/
namespace RobotBridge.WebSocket

open Line.Pair (emitted received)

/-! ### What happens on the line -/

inductive Learns (c : Course) : Input → List Line.Deed → Line.Pair → Prop
  | connected : (c.task.pair.line.emit .opened).2 → Learns c .connected [] c.task.pair
  | refused {written : Bool} : (c.task.pair.line.emit .opened).2 = false →
      Learns c (.refused written) [] c.task.pair
  | unreachable {reason : String} : Learns c (.unreachable reason) [] c.task.pair
  | connectTimeout : Learns c .connectTimeout [] c.task.pair
  | command {command : Command} {i : Input} : c.task.transport.phase = .pumping →
      c.task.pair.line.nextCommand.2 = .ready command → i.command? = some command →
      Learns c i [.receive (.ready command)]
        { c.task.pair with line := c.task.pair.line.nextCommand.1 }
  | abandoned {written : Bool} : c.task.transport.phase = .pumping →
      c.task.pair.line.nextCommand.2 = .ended →
      Learns c (.abandoned written) [.receive .ended]
        { c.task.pair with line := c.task.pair.line.nextCommand.1 }
  | received {message : Inbound} : Learns c (.received message) [] c.task.pair
  | closeTimeout : Learns c .closeTimeout [] c.task.pair

inductive Goes (c : Course) : Course → Prop
  | still : Goes c c
  | aside {deed : Line.Deed} {pair : Line.Pair} : c.task.pair.Does deed pair → emitted [deed] = [] →
      received [deed] = [] → deed ≠ .dropTransport →
      Goes c { c with task := { c.task with pair }, deeds := c.deeds ++ [deed] }
  | learn {i : Input} {before : List Line.Deed} {pair : Line.Pair} : Learns c i before pair →
      Goes c
        { task := ⟨(c.task.transport.step i).1, (pair.run (Task.follow c.task.transport i)).1⟩
          deeds := c.deeds ++ before ++ (pair.run (Task.follow c.task.transport i)).2
          inputs := c.inputs ++ [i] }

theorem session_deed {deed : Line.Deed} (h : deed.op.isSession) :
    emitted [deed] = [] ∧ received [deed] = [] ∧ deed ≠ .dropTransport := by
  cases deed with
  | emit | receive | dropTransport => contradiction
  | poll got => cases got <;> exact ⟨rfl, rfl, Line.Deed.noConfusion⟩
  | _ => exact ⟨rfl, rfl, Line.Deed.noConfusion⟩

theorem goes_session (c : Course) (op : Line.Op) : Goes c (c.go (.session op)) := by
  have hgo : c.go (.session op) = { c with
      task := { c.task with pair := (c.task.pair.run (if op.isSession then [op] else [])).1 }
      deeds := c.deeds ++ (c.task.pair.run (if op.isSession then [op] else [])).2 } := rfl
  rw [hgo]
  split
  · next hop =>
    unfold Line.Pair.run
    cases hperform : c.task.pair.perform op with
    | none => simpa [Line.Pair.run] using Goes.still
    | some r =>
      obtain ⟨hemitted, hreceived, hdrop⟩ := session_deed (Line.Pair.op_of_perform hperform ▸ hop)
      exact .aside (Line.Pair.does hperform) hemitted hreceived hdrop
  · simpa [Line.Pair.run] using Goes.still

theorem goes_command {c : Course} (written : Except String Unit)
    (ha : c.task.transport.phase = .pumping → c.task.pair.line.attached) :
    Goes c (c.go (.command written)) := by
  unfold Course.go Task.polls Task.input?
  by_cases htakes : c.task.transport.takesCommands
  · have hphase : c.task.transport.phase = .pumping := of_decide_eq_true htakes
    have hreceive : c.task.pair.run [.receive] =
        ({ c.task.pair with line := c.task.pair.line.nextCommand.1 },
          [.receive c.task.pair.line.nextCommand.2]) := by
      simp [Line.Pair.run, Line.Pair.perform, ha hphase]
    simp only [htakes, if_true, hreceive]
    cases hnext : c.task.pair.line.nextCommand.2 with
    | pending =>
      have hdoes : c.task.pair.Does (.receive .pending)
          { c.task.pair with line := c.task.pair.line.nextCommand.1 } := hnext ▸ .receive (ha hphase)
      exact .aside hdoes rfl rfl Line.Deed.noConfusion
    | ready command => exact .learn (.command hphase hnext (by cases command <;> rfl))
    | ended => exact .learn (.abandoned hphase hnext)
  · simpa [htakes, Line.Pair.run] using Goes.still

theorem goes {c : Course} (h : Happening)
    (ha : c.task.transport.phase = .pumping → c.task.pair.line.attached) : Goes c (c.go h) := by
  cases h with
  | session op => exact goes_session c op
  | command written => exact goes_command written ha
  | connected written =>
    unfold Course.go Task.polls Task.input?
    cases htaken : (c.task.pair.line.emit .opened).2 with
    | true => exact .learn (.connected htaken)
    | false => exact .learn (.refused htaken)
  | unreachable reason => exact .learn .unreachable
  | connectTimeout => exact .learn .connectTimeout
  | received message => exact .learn .received
  | closeTimeout => exact .learn .closeTimeout

/-! ### What the task does on the line -/

theorem run_emits {p : Line.Pair} (ha : p.line.attached) (es : List Event) :
    emitted (p.run (es.map .emit)).2 = es ∧ received (p.run (es.map .emit)).2 = [] ∧
      (p.run (es.map .emit)).1.line.attached := by
  induction es generalizing p with
  | nil => exact ⟨rfl, rfl, ha⟩
  | cons e es ih =>
    have hkept : (p.line.emit e).1.attached := by
      obtain ⟨_, hemit⟩ := p.line.emit_frame e
      rwa [hemit]
    have hrun : p.run ((e :: es).map .emit) =
        ((Line.Pair.run { p with line := (p.line.emit e).1 } (es.map .emit)).1,
          .emit e (p.line.emit e).2 ::
            (Line.Pair.run { p with line := (p.line.emit e).1 } (es.map .emit)).2) := by
      rw [List.map_cons, Line.Pair.run, Line.Pair.perform, if_pos ha]
    obtain ⟨hemitted, hreceived, hattached⟩ := ih (p := { p with line := (p.line.emit e).1 }) hkept
    rw [hrun]
    exact ⟨congrArg (e :: ·) hemitted, hreceived, hattached⟩

/-- What a task that is not over does, and how it is then. -/
theorem follow_attached {p : Line.Pair} (ha : p.line.attached) (t : Transport) (i : Input) :
    emitted (p.run (Task.follow t i)).2 = (t.step i).2 ∧ received (p.run (Task.follow t i)).2 = [] ∧
      (p.run (Task.follow t i)).1.line.attached = decide ((t.step i).1.phase ≠ .finished) := by
  obtain ⟨hemitted, hreceived, hattached⟩ := run_emits ha (t.step i).2
  rw [Task.follow, Line.Pair.run_append, Line.Pair.emitted_append, Line.Pair.received_append, hemitted, hreceived]
  split
  · next hover =>
    simp [Line.Pair.run, Line.Pair.perform, hattached, hover, Line.dropTransport]
  · next hover => simp [Line.Pair.run, hattached, hover]

/-- The task offers what its transport tells, and gives up the line when it is over. -/
theorem follow_spec {p : Line.Pair} {t : Transport}
    (ha : p.line.attached = decide (t.phase ≠ .finished)) (i : Input) :
    emitted (p.run (Task.follow t i)).2 = (t.step i).2 ∧ received (p.run (Task.follow t i)).2 = [] ∧
      (p.run (Task.follow t i)).1.line.attached = decide ((t.step i).1.phase ≠ .finished) := by
  by_cases hover : t.phase = .finished
  · have hgone : p.line.attached = false := by simpa [hover] using ha
    have hstep : t.step i = (t, []) := by rw [Transport.step, hover, react_finished, ← hover]
    simp [Task.follow, hstep, hover, Line.Pair.run, Line.Pair.perform, hgone]
  · exact follow_attached (ha.trans (decide_eq_true hover)) t i

end RobotBridge.WebSocket
