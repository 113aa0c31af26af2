import RobotBridge.Connection.Pair
import RobotBridge.Proofs.Connection.Traffic

/-! The contract of a line: in whatever order things are done at its two ends, the session takes what
the transport emitted up to one terminal event, and the transport receives what was queued in time. -/
namespace RobotBridge.Line

/-! ### What deeds say -/

@[simp] def Deed.use? : Deed → Option Use
  | .emit e _ => some (.emit e)
  | .poll got => got.ready?.map .yield
  | .queue c => some (.queue c)
  | .dropTransport => some .vanish
  | .receive _ | .copyHandle | .dropHandle | .dropEvents => none

def Deed.op : Deed → Op
  | .emit e _ => .emit e
  | .poll _ => .poll
  | .queue c => .queue c
  | .receive _ => .receive
  | .copyHandle => .copyHandle
  | .dropHandle => .dropHandle
  | .dropEvents => .dropEvents
  | .dropTransport => .dropTransport

@[simp] def Deed.received? : Deed → Option Command
  | .receive got => got.ready?
  | _ => none

namespace Pair

def uses (deeds : List Deed) : List Use := deeds.filterMap Deed.use?

/-- The events that the transport offered, taken or not. -/
def emitted (deeds : List Deed) : List Event := Line.emitted (uses deeds)

def yielded (deeds : List Deed) : List Event := Line.yielded (uses deeds)

def queued (deeds : List Deed) : List Command := Line.queued (uses deeds)

def received (deeds : List Deed) : List Command := deeds.filterMap Deed.received?

/-- The commands that were queued while the transport was there. -/
def sent (deeds : List Deed) : List Command := queued (deeds.takeWhile (· ≠ .dropTransport))

def handlesLeft (deeds : List Deed) : Nat := 1 + deeds.count .copyHandle - deeds.count .dropHandle

/-- What was done has left the end of an operation there. -/
def allows (deeds : List Deed) : Op → Bool
  | .emit _ | .receive | .dropTransport => .dropTransport ∉ deeds
  | .poll | .dropEvents => .dropEvents ∉ deeds
  | .queue _ | .copyHandle | .dropHandle => 0 < handlesLeft deeds

def upToEnd : List Event → List Event
  | [] => []
  | e :: es => if e.isTerminal then [e] else e :: upToEnd es

/-- What there is to be taken. A transport that went away without a terminal event has failed. -/
def due (deeds : List Deed) : List Event :=
  upToEnd (emitted deeds ++ if .dropTransport ∈ deeds then [vanished] else [])

variable {deeds before : List Deed} {deed : Deed} {p q : Pair} {es fs : List Event}

@[simp] theorem uses_append : uses (before ++ deeds) = uses before ++ uses deeds := List.filterMap_append

@[simp] theorem uses_singleton : uses [deed] = deed.use?.toList := by
  rw [uses, List.filterMap_cons]
  cases deed.use? <;> rfl

@[simp] theorem emitted_append : emitted (before ++ deeds) = emitted before ++ emitted deeds := by
  simp [emitted]

@[simp] theorem yielded_append : yielded (before ++ deeds) = yielded before ++ yielded deeds := by
  simp [yielded]

@[simp] theorem queued_append : queued (before ++ deeds) = queued before ++ queued deeds := by
  simp [queued]

@[simp] theorem received_append : received (before ++ deeds) = received before ++ received deeds :=
  List.filterMap_append

@[simp] theorem emitted_nil : emitted [] = [] := rfl

@[simp] theorem received_nil : received [] = [] := rfl

@[simp] theorem emitted_singleton : emitted [deed] = Line.emitted deed.use?.toList := by
  rw [emitted, uses_singleton]

@[simp] theorem yielded_singleton : yielded [deed] = Line.yielded deed.use?.toList := by
  rw [yielded, uses_singleton]

@[simp] theorem received_singleton : received [deed] = deed.received?.toList := by
  rw [received, List.filterMap_cons]
  cases deed.received? <;> rfl

theorem vanish_mem_uses : .vanish ∈ uses deeds ↔ .dropTransport ∈ deeds := by
  rw [uses, List.mem_filterMap]
  constructor
  · rintro ⟨deed, hm, hdeed⟩
    cases deed with
    | dropTransport => exact hm
    | poll got => cases got <;> simp at hdeed
    | _ => simp at hdeed
  · intro hm
    exact ⟨_, hm, rfl⟩

/-! ### Events up to the end -/

theorem upToEnd_of_live (h : es.any Event.isTerminal = false) : upToEnd es = es := by
  induction es with
  | nil => rfl
  | cons e es ih =>
    obtain ⟨he, hes⟩ := Bool.or_eq_false_iff.mp h
    rw [upToEnd, he, ih hes]
    rfl

theorem upToEnd_append (es fs : List Event) :
    upToEnd (es ++ fs) = if es.any Event.isTerminal then upToEnd es else es ++ upToEnd fs := by
  induction es with
  | nil => rfl
  | cons e es ih =>
    rw [List.cons_append, upToEnd, upToEnd, ih, List.any_cons]
    cases e.isTerminal <;> cases es.any Event.isTerminal <;> rfl

/-- Nothing comes after a terminal event, so one that has been reached is the end. -/
theorem eq_upToEnd_of_any (h : es <+: upToEnd fs) (ht : es.any Event.isTerminal) : es = upToEnd fs := by
  induction fs generalizing es with
  | nil => exact List.prefix_nil.mp h
  | cons f fs ih =>
    cases es with
    | nil => contradiction
    | cons e es =>
      rw [upToEnd] at h ⊢
      split at h
      · next hf =>
        obtain ⟨rfl, hes⟩ := List.cons_prefix_cons.mp h
        rw [if_pos hf, List.prefix_nil.mp hes]
      · next hf =>
        obtain ⟨rfl, hes⟩ := List.cons_prefix_cons.mp h
        rw [if_neg hf, ← ih hes (by simpa [hf] using ht)]

/-- The end is the only terminal event. -/
theorem upToEnd_eq_concat (h : (upToEnd es).any Event.isTerminal) :
    ∃ fs e, upToEnd es = fs ++ [e] ∧ e.isTerminal ∧ fs.any Event.isTerminal = false := by
  induction es with
  | nil => contradiction
  | cons e es ih =>
    rw [upToEnd] at h ⊢
    split
    · next he => exact ⟨[], e, rfl, he, rfl⟩
    · next he =>
      obtain ⟨fs, e', heq, hend, hlive⟩ := ih (by simpa [he] using h)
      exact ⟨e :: fs, e', by rw [heq, List.cons_append], hend, by simp [he, hlive]⟩

/-! ### What can be done -/

inductive Does (p : Pair) : Deed → Pair → Prop
  | emit {e} : p.line.attached →
      Does p (.emit e (p.line.emit e).2) { p with line := (p.line.emit e).1 }
  | poll {l got} : p.line.listening → Polled p.line l got → Does p (.poll got) { p with line := l }
  | queue {c} : 0 < p.handles → Does p (.queue c) { p with line := p.line.queue c }
  | receive : p.line.attached →
      Does p (.receive p.line.nextCommand.2) { p with line := p.line.nextCommand.1 }
  | copyHandle : 0 < p.handles → Does p .copyHandle { p with handles := p.handles + 1 }
  | dropHandle : 0 < p.handles →
      Does p .dropHandle ⟨if p.handles = 1 then p.line.dropHandle else p.line, p.handles - 1⟩
  | dropEvents : p.line.listening → Does p .dropEvents { p with line := p.line.dropEvents }
  | dropTransport : p.line.attached → Does p .dropTransport { p with line := p.line.dropTransport }

theorem does {op : Op} (h : p.perform op = some (q, deed)) : Does p deed q := by
  cases op <;>
  · obtain ⟨hend, h⟩ := Option.ite_none_right_eq_some.mp h
    obtain ⟨rfl, rfl⟩ := Prod.mk.inj (Option.some.inj h)
    first
      | exact .poll hend (polled p.line)
      | constructor
        exact hend

/-- The end that an operation is done at is there; for commands that is a handle. -/
def has (p : Pair) : Op → Bool
  | .emit _ | .receive | .dropTransport => p.line.attached
  | .poll | .dropEvents => p.line.listening
  | .queue _ | .copyHandle | .dropHandle => 0 < p.handles

/-- An operation is carried out exactly when its end is there. -/
theorem perform_isSome (p : Pair) (op : Op) : (p.perform op).isSome = p.has op := by
  cases op <;>
  · dsimp only [perform, has]
    split <;> simp_all

theorem op_of_perform {op : Op} (h : p.perform op = some (q, deed)) : deed.op = op := by
  cases op <;>
  · obtain ⟨-, h⟩ := Option.ite_none_right_eq_some.mp h
    obtain ⟨-, rfl⟩ := Prod.mk.inj (Option.some.inj h)
    rfl

theorem run_append (p : Pair) (ops more : List Op) :
    p.run (ops ++ more) =
      (((p.run ops).1.run more).1, (p.run ops).2 ++ ((p.run ops).1.run more).2) := by
  induction ops generalizing p with
  | nil => rfl
  | cons op ops ih =>
    rw [List.cons_append, Pair.run, Pair.run]
    cases p.perform op with
    | none => exact ih p
    | some r => simp only [ih, List.cons_append]

theorem map_op_run_singleton (p : Pair) (op : Op) :
    (p.run [op]).2.map Deed.op = if p.has op then [op] else [] := by
  rw [← perform_isSome, Pair.run]
  cases hperform : p.perform op with
  | none => rfl
  | some r => simp [Pair.run, op_of_perform hperform]

def after (ops : List Op) : Pair := (({} : Pair).run ops).1

def done (ops : List Op) : List Deed := (({} : Pair).run ops).2

inductive Comes : List Deed → Pair → Prop
  | start : Comes [] {}
  | step {deeds : List Deed} {deed : Deed} {p q : Pair} :
      Comes deeds p → Does p deed q → Comes (deeds ++ [deed]) q

theorem Comes.run (h : Comes deeds p) (ops : List Op) :
    Comes (deeds ++ (p.run ops).2) (p.run ops).1 := by
  induction ops generalizing deeds p with
  | nil => simpa [Pair.run] using h
  | cons op ops ih =>
    unfold Pair.run
    cases hop : p.perform op with
    | none => exact ih h
    | some r => simpa using ih (h.step (does hop))

theorem comes (ops : List Op) : Comes (done ops) (after ops) := Comes.start.run ops

/-- Each deed was done by a pair that had come that far. -/
theorem Comes.split (h : Comes deeds p) {later : List Deed} (hd : deeds = before ++ deed :: later) :
    ∃ q r, Comes before q ∧ Does q deed r := by
  induction h generalizing later with
  | start => exact absurd hd (by simp)
  | @step deeds last p q h hdoes ih =>
    rcases List.eq_nil_or_concat later with rfl | ⟨mid, last', rfl⟩
    · obtain ⟨rfl, hlast⟩ := List.append_inj' hd rfl
      obtain ⟨rfl, -⟩ := List.cons.inj hlast
      exact ⟨p, q, h, hdoes⟩
    · rw [List.concat_eq_append, ← List.cons_append, ← List.append_assoc] at hd
      exact ih (List.append_inj' hd rfl).1

/-! ### What every run keeps -/

structure Told (deeds : List Deed) (p : Pair) : Prop where
  line : Line.Told (uses deeds) (received deeds) p.line
  listening : p.line.listening = false ↔ .dropEvents ∈ deeds
  held : p.line.held = decide (0 < p.handles)
  handles : p.handles + deeds.count .dropHandle = 1 + deeds.count .copyHandle

theorem Told.terminated (h : Told deeds p) : p.line.terminated = (yielded deeds).any Event.isTerminal :=
  h.line.terminated

theorem Told.attached (h : Told deeds p) : p.line.attached = false ↔ .dropTransport ∈ deeds :=
  h.line.attached.trans vanish_mem_uses

theorem Told.commands (h : Told deeds p) (ha : p.line.attached) :
    received deeds ++ p.line.commands = queued deeds := h.line.commands ha

theorem Told.events (h : Told deeds p) (hl : p.line.listening) (ht : p.line.terminated = false) :
    yielded deeds ++ p.line.events = emitted deeds := h.line.events hl ht

theorem Does.line (hd : Does p deed q) (h : Line.Told (uses deeds) (received deeds) p.line) :
    Line.Told (uses (deeds ++ [deed])) (received (deeds ++ [deed])) q.line := by
  rw [uses_append, uses_singleton, received_append, received_singleton]
  cases hd with
  | emit ha => simpa using h.emit ha _
  | poll _ hp => simpa using h.poll hp
  | queue => simpa using h.queue _
  | receive => simpa using h.receive
  | copyHandle => simpa using h
  | dropHandle =>
    dsimp only
    split
    · simpa using h.dropHandle
    · simpa using h
  | dropEvents => simpa using h.dropEvents
  | dropTransport => simpa using h.vanish

/-- Only the session stops listening. -/
theorem Does.listening (hd : Does p deed q) :
    q.line.listening = (p.line.listening && decide (deed ≠ .dropEvents)) := by
  cases hd with
  | @emit e =>
    obtain ⟨_, hline⟩ := p.line.emit_frame e
    simp [hline]
  | poll _ hp => cases hp <;> simp
  | @queue c =>
    obtain ⟨_, hline⟩ := p.line.queue_frame c
    simp [hline]
  | receive =>
    obtain ⟨_, hline⟩ := p.line.nextCommand_frame
    simp [hline]
  | dropHandle => dsimp only; split <;> simp [Line.dropHandle]
  | copyHandle | dropEvents | dropTransport => simp [Line.dropEvents, Line.dropTransport]

theorem Does.handles (hd : Does p deed q) :
    q.handles + [deed].count .dropHandle = p.handles + [deed].count .copyHandle := by
  cases hd with
  | dropHandle hpos => simp [Nat.sub_add_cancel hpos]
  | _ => simp

/-- The line has a handle as long as the session has one. -/
theorem Does.held (hd : Does p deed q) (h : p.line.held = decide (0 < p.handles)) :
    q.line.held = decide (0 < q.handles) := by
  cases hd with
  | @emit e =>
    obtain ⟨_, hline⟩ := p.line.emit_frame e
    simp [hline, h]
  | poll _ hp => cases hp <;> exact h
  | @queue c =>
    obtain ⟨_, hline⟩ := p.line.queue_frame c
    simp [hline, h]
  | receive =>
    obtain ⟨_, hline⟩ := p.line.nextCommand_frame
    simp [hline, h]
  | copyHandle hpos => simp [h, hpos]
  | dropHandle hpos =>
    dsimp only
    split
    · next hone => simp [hone, Line.dropHandle]
    · next hmore => simp [h, hpos, Nat.sub_pos_of_lt (Nat.lt_of_le_of_ne hpos (Ne.symm hmore))]
  | dropEvents | dropTransport => exact h

theorem Told.does (h : Told deeds p) (hd : Does p deed q) : Told (deeds ++ [deed]) q where
  line := hd.line h.line
  listening := by
    rw [hd.listening, Bool.and_eq_false_iff, h.listening, decide_eq_false_iff_not, Decidable.not_not, List.mem_append,
      List.mem_singleton, @eq_comm _ deed]
  held := hd.held h.held
  handles := by
    have hold := h.handles
    have hnew := hd.handles
    rw [List.count_append, List.count_append]
    omega

theorem Told.handlesLeft (h : Told deeds p) : handlesLeft deeds = p.handles := by
  have := h.handles
  rw [Pair.handlesLeft]
  omega

theorem Told.has_eq (h : Told deeds p) (op : Op) : p.has op = allows deeds op := by
  have hattached := h.attached
  have hlistening := h.listening
  cases op <;> simp only [has, allows, h.handlesLeft]
  case emit | receive | dropTransport => cases ha : p.line.attached <;> simp_all
  case poll | dropEvents => cases hl : p.line.listening <;> simp_all

theorem Comes.told (h : Comes deeds p) : Told deeds p := by
  induction h with
  | start => exact ⟨.start, by simp, rfl, rfl⟩
  | step _ hdoes ih => exact ih.does hdoes

/-! ### What is due only grows -/

theorem upToEnd_mono (h : es <+: fs) : upToEnd es <+: upToEnd fs := by
  obtain ⟨gs, rfl⟩ := h
  rw [upToEnd_append]
  split
  · exact List.prefix_rfl
  · next hlive =>
    rw [upToEnd_of_live (eq_false_of_ne_true hlive)]
    exact List.prefix_append ..

theorem due_grows (h : .dropTransport ∈ deeds → emitted [deed] = []) :
    due deeds <+: due (deeds ++ [deed]) := by
  refine upToEnd_mono ?_
  rw [emitted_append]
  by_cases hgone : .dropTransport ∈ deeds
  · rw [h hgone]
    simp [hgone]
  · simp [hgone]

theorem sent_grows (deeds more : List Deed) : sent deeds <+: sent (deeds ++ more) := by
  rw [sent, sent, List.takeWhile_append]
  split
  · next hall =>
    rw [(List.takeWhile_prefix _).eq_of_length hall, queued_append]
    exact List.prefix_append ..
  · exact List.prefix_rfl

theorem sent_of_attached (h : .dropTransport ∉ deeds) : sent deeds = queued deeds := by
  have hall : ∀ deed ∈ deeds, decide (deed ≠ Deed.dropTransport) := fun deed hd => by
    simp
    rintro rfl
    exact h hd
  have hwhole : (deeds ++ []).takeWhile (· ≠ Deed.dropTransport) = deeds ++ [].takeWhile _ :=
    List.takeWhile_append_of_pos hall
  rw [sent, ← List.append_nil deeds, hwhole, List.takeWhile_nil]

/-- While the session has taken no terminal event, what it takes next is due next. -/
theorem due_of_live (h : Told deeds p) (hl : p.line.listening) (ht : p.line.terminated = false) :
    due deeds = yielded deeds ++
      upToEnd (p.line.events ++ if p.line.attached then [] else [vanished]) := by
  have hlive : (yielded deeds).any Event.isTerminal = false := h.terminated ▸ ht
  have hgone : (if .dropTransport ∈ deeds then [vanished] else []) =
      if p.line.attached then [] else [vanished] := by
    cases ha : p.line.attached with
    | true => rw [if_neg fun hgone => ne_false_of_eq_true ha (h.attached.mpr hgone), if_pos rfl]
    | false => rw [if_pos (h.attached.mp ha), if_neg Bool.false_ne_true]
  rw [due, ← h.events hl ht, List.append_assoc, upToEnd_append, hlive, hgone]
  rfl

/-- What the session has taken is what was due, as far as it has come. -/
theorem Comes.yields (h : Comes deeds p) : yielded deeds <+: due deeds := by
  induction h with
  | start => exact List.prefix_rfl
  | @step deeds deed p q hcomes hdoes ih =>
    have told := hcomes.told
    have hgrow : due deeds <+: due (deeds ++ [deed]) := due_grows fun hgone => by
      cases hdoes with
      | emit ha => exact absurd (told.attached.mpr hgone) (ne_false_of_eq_true ha)
      | poll _ hp => cases hp <;> rfl
      | _ => rfl
    cases hdoes with
    | poll hl hp =>
      cases hp with
      | ended | wait => simpa using ih.trans hgrow
      | next ht he =>
        refine List.IsPrefix.trans ?_ hgrow
        rw [due_of_live told hl ht, he, List.cons_append, upToEnd]
        rw [yielded_append, List.prefix_append_right_inj]
        split
        · exact List.prefix_rfl
        · exact List.prefix_append [_] _
      | vanished ht he ha =>
        refine List.IsPrefix.trans ?_ hgrow
        rw [due_of_live told hl ht, he, ha]
        simp [upToEnd, Line.vanished, Event.isTerminal]
    | _ => simpa using ih.trans hgrow

/-- What the transport has received is what was sent to it, as far as it has come. -/
theorem Comes.receives (h : Comes deeds p) : received deeds <+: sent deeds := by
  induction h with
  | start => exact List.prefix_rfl
  | @step deeds deed p q hcomes hdoes ih =>
    have hgrow := sent_grows deeds [deed]
    have told := hcomes.told
    cases hdoes with
    | receive ha =>
      refine List.IsPrefix.trans ?_ hgrow
      have hthere : .dropTransport ∉ deeds := fun hgone =>
        ne_false_of_eq_true ha (told.attached.mpr hgone)
      rw [sent_of_attached hthere, ← told.commands ha, received_append, received_singleton]
      unfold nextCommand
      split
      · next hc => simp [hc]
      · split <;> simp
    | _ => simpa using ih.trans hgrow

/-! ### What polls and emits come to -/

/-- A poll says that the end has come exactly when a terminal event was taken, and to wait only when
everything due was taken and the transport is there. -/
theorem Told.poll_result (h : Told deeds p) (hl : p.line.listening) {l : Line} {got : Poll Event}
    (hp : Polled p.line l got) :
    (got = .ended ↔ (yielded deeds).any Event.isTerminal) ∧
      (got = .pending → yielded deeds = due deeds ∧ .dropTransport ∉ deeds) := by
  rw [← h.terminated, ← h.attached]
  cases hp with
  | ended ht => simp [ht]
  | next ht => simp [ht]
  | wait ht he ha => simp [ht, due_of_live h hl ht, he, ha, upToEnd]
  | vanished ht => simp [ht]

/-- The session takes an event exactly while it listens and has taken no terminal event. -/
theorem Told.emit_result (h : Told deeds p) (ha : p.line.attached) (e : Event) :
    (p.line.emit e).2 ↔
      .dropEvents ∉ deeds ∧ (yielded deeds).any Event.isTerminal = false := by
  rw [← h.terminated, ← h.listening, Line.emit, ha]
  cases p.line.listening <;> cases p.line.terminated <;> simp

/-- A poll says that commands have ended exactly when no handle is left and all was received, and to
wait only when all was received. -/
theorem Told.receive_result (h : Told deeds p) (ha : p.line.attached) :
    (p.line.nextCommand.2 = .ended ↔
      Pair.handlesLeft deeds = 0 ∧ received deeds = queued deeds) ∧
    (p.line.nextCommand.2 = .pending → received deeds = queued deeds) := by
  have hc := h.commands ha
  rw [h.handlesLeft, ← hc, nextCommand]
  split
  · next hcommands => simp [hcommands]
  · next hcommands =>
    rw [hcommands, h.held]
    cases p.handles <;> simp

theorem Comes.ended (h : Comes deeds p) (hended : .poll .ended ∈ deeds) :
    yielded deeds = due deeds ∧
      ∃ es e, yielded deeds = es ++ [e] ∧ e.isTerminal ∧ es.any Event.isTerminal = false := by
  obtain ⟨before, later, rfl⟩ := List.append_of_mem hended
  obtain ⟨q, r, hq, hdoes⟩ := h.split rfl
  have hterminal : (yielded before).any Event.isTerminal := by
    cases hdoes with
    | poll hl hp => exact (hq.told.poll_result hl hp).1.mp rfl
  have htaken : (yielded (before ++ .poll .ended :: later)).any Event.isTerminal := by
    rw [yielded_append, List.any_append]
    exact Bool.or_eq_true_iff.mpr (.inl hterminal)
  have hdue := eq_upToEnd_of_any h.yields htaken
  exact ⟨hdue, hdue ▸ upToEnd_eq_concat (hdue ▸ htaken)⟩

/-- What can be relied on at both ends of a line. -/
structure Contract (deeds : List Deed) : Prop where
  yields : yielded deeds <+: due deeds
  /-- Polled to the end, the session has taken everything due, with one terminal event, the last. -/
  ends : .poll .ended ∈ deeds → yielded deeds = due deeds ∧
    ∃ es e, yielded deeds = es ++ [e] ∧ e.isTerminal ∧ es.any Event.isTerminal = false
  polls : ∀ before got later, deeds = before ++ .poll got :: later →
    (got = .ended ↔ (yielded before).any Event.isTerminal) ∧
    (got = .pending → yielded before = due before ∧ .dropTransport ∉ before)
  emits : ∀ before e (taken : Bool) later, deeds = before ++ .emit e taken :: later →
    (taken ↔ .dropEvents ∉ before ∧ (yielded before).any Event.isTerminal = false)
  receives : received deeds <+: sent deeds
  commandPolls : ∀ before got later, deeds = before ++ .receive got :: later →
    (got = .ended ↔ handlesLeft before = 0 ∧ received before = queued before) ∧
    (got = .pending → received before = queued before)

/-- What is done next is the next operation, if its end is still there. -/
theorem done_snoc (ops : List Op) (op : Op) : (done (ops ++ [op])).map Deed.op =
    (done ops).map Deed.op ++ if allows (done ops) op then [op] else [] := by
  rw [done, run_append, List.map_append, map_op_run_singleton, ← (comes ops).told.has_eq op]
  rfl

theorem Contract.kept (ops : List Op) : Contract (done ops) where
  yields := (comes ops).yields
  ends := (comes ops).ended
  polls before got later h := by
    obtain ⟨q, r, hq, hdoes⟩ := (comes ops).split h
    cases hdoes with
    | poll hl hp => exact hq.told.poll_result hl hp
  emits before e taken later h := by
    obtain ⟨q, r, hq, hdoes⟩ := (comes ops).split h
    cases hdoes with
    | emit ha => exact hq.told.emit_result ha e
  receives := (comes ops).receives
  commandPolls before got later h := by
    obtain ⟨q, r, hq, hdoes⟩ := (comes ops).split h
    cases hdoes with
    | receive ha => exact hq.told.receive_result ha

/-- Whatever is tried at the two ends of a new line, and in whatever order, what is done is what finds its
end there, and the contract is kept. -/
theorem contract_kept (ops : List Op) : Contract (done ops) ∧
    ∀ op, (done (ops ++ [op])).map Deed.op =
      (done ops).map Deed.op ++ if allows (done ops) op then [op] else [] :=
  ⟨.kept ops, done_snoc ops⟩

end Pair

end RobotBridge.Line
