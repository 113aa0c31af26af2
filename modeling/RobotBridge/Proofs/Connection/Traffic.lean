import RobotBridge.Connection.Line

/-! What passes over one line. From its opening on, what its transport emitted and received and what the
session took and queued say in what state the line is. -/
namespace RobotBridge

@[simp] def Poll.ready? {α : Type} : Poll α → Option α
  | .ready a => some a
  | .pending | .ended => none

namespace Line

inductive Use where
  | emit (e : Event)
  /-- The transport goes away. -/
  | vanish
  /-- The session takes an event. -/
  | yield (e : Event)
  /-- The session queues a command; without a transport it is lost. -/
  | queue (c : Command)
deriving DecidableEq

@[simp] def Use.emitted? : Use → Option Event
  | .emit e => some e
  | _ => none

@[simp] def Use.yielded? : Use → Option Event
  | .yield e => some e
  | _ => none

@[simp] def Use.queued? : Use → Option Command
  | .queue c => some c
  | _ => none

def emitted (uses : List Use) : List Event := uses.filterMap Use.emitted?

def yielded (uses : List Use) : List Event := uses.filterMap Use.yielded?

def queued (uses : List Use) : List Command := uses.filterMap Use.queued?

@[simp] theorem emitted_append (xs ys : List Use) : emitted (xs ++ ys) = emitted xs ++ emitted ys :=
  List.filterMap_append

@[simp] theorem yielded_append (xs ys : List Use) : yielded (xs ++ ys) = yielded xs ++ yielded ys :=
  List.filterMap_append

@[simp] theorem queued_append (xs ys : List Use) : queued (xs ++ ys) = queued xs ++ queued ys :=
  List.filterMap_append

@[simp] theorem emitted_nil : emitted [] = [] := rfl

@[simp] theorem emitted_cons (use : Use) (uses : List Use) :
    emitted (use :: uses) = use.emitted?.toList ++ emitted uses := by
  cases use <;> rfl

@[simp] theorem yielded_nil : yielded [] = [] := rfl

@[simp] theorem yielded_cons (use : Use) (uses : List Use) :
    yielded (use :: uses) = use.yielded?.toList ++ yielded uses := by
  cases use <;> rfl

@[simp] theorem queued_nil : queued [] = [] := rfl

@[simp] theorem queued_cons (use : Use) (uses : List Use) :
    queued (use :: uses) = use.queued?.toList ++ queued uses := by
  cases use <;> rfl

@[simp] theorem yielded_map_queue (cs : List Command) : yielded (cs.map .queue) = [] := by
  simp [yielded, List.filterMap_map, Function.comp_def]

@[simp] theorem queued_map_queue (cs : List Command) : queued (cs.map .queue) = cs := by
  simp [queued, List.filterMap_map, Function.comp_def]

/-- A line becomes another while this passes over it. The session may also let go of either half. -/
inductive Passes (p : Line) : List Use → Line → Prop
  | refl : Passes p [] p
  | emit {uses q} (e : Event) : Passes p uses q → q.attached → Passes p (uses ++ [.emit e]) (q.emit e).1
  | vanish {uses q} : Passes p uses q → Passes p (uses ++ [.vanish]) q.dropTransport
  | yield {uses q r e} : Passes p uses q → q.nextEvent = (r, .ready e) → Passes p (uses ++ [.yield e]) r
  | queue {uses q} (c : Command) : Passes p uses q → Passes p (uses ++ [.queue c]) (q.queue c)
  | dropHandle {uses q} : Passes p uses q → Passes p uses q.dropHandle
  | dropEvents {uses q} : Passes p uses q → Passes p uses q.dropEvents

variable {p q r : Line} {uses more : List Use} {received : List Command}

theorem Passes.trans (h : Passes p uses q) (h' : Passes q more r) : Passes p (uses ++ more) r := by
  induction h' with
  | refl => simpa using h
  | emit e _ ha ih => exact List.append_assoc .. ▸ ih.emit e ha
  | vanish _ ih => exact List.append_assoc .. ▸ ih.vanish
  | yield _ hn ih => exact List.append_assoc .. ▸ ih.yield hn
  | queue c _ ih => exact List.append_assoc .. ▸ ih.queue c
  | dropHandle _ ih => exact ih.dropHandle
  | dropEvents _ ih => exact ih.dropEvents

/-! ### What an operation leaves alone -/

theorem emit_frame (p : Line) (e : Event) : ∃ events, (p.emit e).1 = { p with events } := by
  unfold Line.emit
  split
  · exact ⟨_, rfl⟩
  · exact ⟨p.events, rfl⟩

theorem queue_frame (p : Line) (c : Command) : ∃ commands, p.queue c = { p with commands } := by
  unfold Line.queue
  split
  · exact ⟨_, rfl⟩
  · exact ⟨p.commands, rfl⟩

theorem foldl_queue_frame (p : Line) (cs : List Command) : ∃ commands, cs.foldl Line.queue p = { p with commands } := by
  induction cs generalizing p with
  | nil => exact ⟨p.commands, rfl⟩
  | cons c cs ih =>
    obtain ⟨_, hq⟩ := queue_frame p c
    obtain ⟨commands, hcs⟩ := ih (p.queue c)
    exact ⟨commands, by rw [List.foldl_cons, hcs, hq]⟩

theorem nextCommand_frame (p : Line) : ∃ commands, p.nextCommand.1 = { p with commands } := by
  unfold nextCommand
  split
  · exact ⟨_, rfl⟩
  · exact ⟨p.commands, rfl⟩

/-! ### Polls -/

inductive Polled (p : Line) : Line → Poll Event → Prop
  | ended : p.terminated → Polled p p .ended
  | next {e rest} : p.terminated = false → p.events = e :: rest →
      Polled p { p with events := rest, terminated := e.isTerminal } (.ready e)
  | wait : p.terminated = false → p.events = [] → p.attached → Polled p p .pending
  | vanished : p.terminated = false → p.events = [] → p.attached = false →
      Polled p { p with terminated := true } (.ready vanished)

theorem polled (p : Line) : Polled p p.nextEvent.1 p.nextEvent.2 := by
  unfold nextEvent
  split
  · next ht => exact .ended ht
  · next ht =>
    have ht := eq_false_of_ne_true ht
    split
    · next he => exact .next ht he
    · next he =>
      split
      · next ha => exact .wait ht he ha
      · next ha => exact .vanished ht he (eq_false_of_ne_true ha)

theorem polled_of_eq {got : Poll Event} (h : p.nextEvent = (q, got)) : Polled p q got := by
  have hp := polled p
  rwa [h] at hp

theorem nextEvent_ready {e : Event} (h : p.nextEvent = (q, .ready e)) :
    p.terminated = false ∧ q.terminated = e.isTerminal ∧ q.attached = p.attached ∧
      q.listening = p.listening ∧ q.commands = p.commands ∧
      (e.isTerminal = false → p.events = e :: q.events) := by
  cases polled_of_eq h with
  | next ht he => exact ⟨ht, rfl, rfl, rfl, rfl, fun _ => he⟩
  | vanished ht _ _ => exact ⟨ht, rfl, rfl, rfl, rfl, nofun⟩

/-! ### The state of a line -/

/-- The state of a line, told by what has passed over it and what its transport has received. -/
structure Told (uses : List Use) (received : List Command) (p : Line) : Prop where
  terminated : p.terminated = (yielded uses).any Event.isTerminal
  attached : p.attached = false ↔ .vanish ∈ uses
  /-- What has been queued has been received or waits. -/
  commands : p.attached → received ++ p.commands = queued uses
  /-- What has been emitted has been taken or waits. -/
  events : p.listening → p.terminated = false → yielded uses ++ p.events = emitted uses

theorem Told.start : Told [] [] {} := ⟨rfl, by simp, fun _ => rfl, fun _ _ => rfl⟩

theorem Told.emit (h : Told uses received p) (ha : p.attached) (e : Event) :
    Told (uses ++ [.emit e]) received (p.emit e).1 := by
  unfold Line.emit
  split
  · refine ⟨?_, ?_, fun _ => ?_, fun hl ht => ?_⟩
    · simpa using h.terminated
    · simpa using h.attached
    · simpa using h.commands ha
    · simp [← h.events hl ht]
  · next hno =>
    refine ⟨?_, ?_, fun _ => ?_, fun hl ht => ?_⟩
    · simpa using h.terminated
    · simpa using h.attached
    · simpa using h.commands ha
    · exact absurd (by simp [ha, show p.listening from hl, show p.terminated = false from ht]) hno

theorem Told.poll (h : Told uses received p) {got : Poll Event} (hp : Polled p q got) :
    Told (uses ++ (got.ready?.map .yield).toList) received q := by
  cases hp with
  | ended | wait => simpa using h
  | next ht he =>
    refine ⟨?_, ?_, fun ha => ?_, fun hl _ => ?_⟩
    · simp [h.terminated ▸ ht]
    · simpa using h.attached
    · simpa using h.commands ha
    · simp [← h.events hl ht, he]
  | vanished ht he ha =>
    refine ⟨?_, ?_, fun ha => ?_, fun _ ht => absurd ht Bool.noConfusion⟩
    · simp [vanished, Event.isTerminal]
    · simpa using h.attached
    · simpa using h.commands ha

theorem Told.queue (h : Told uses received p) (c : Command) :
    Told (uses ++ [.queue c]) received (p.queue c) := by
  unfold Line.queue
  split
  · refine ⟨?_, ?_, fun ha => ?_, fun hl ht => ?_⟩
    · simpa using h.terminated
    · simpa using h.attached
    · simp [← h.commands ha]
    · simpa using h.events hl ht
  · next hgone =>
    refine ⟨?_, ?_, fun ha => absurd ha hgone, fun hl ht => ?_⟩
    · simpa using h.terminated
    · simpa using h.attached
    · simpa using h.events hl ht

theorem Told.receive (h : Told uses received p) :
    Told uses (received ++ p.nextCommand.2.ready?.toList) p.nextCommand.1 := by
  unfold nextCommand
  split
  · next c rest hcommands =>
    refine ⟨h.terminated, h.attached, fun ha => ?_, h.events⟩
    simpa [hcommands] using h.commands ha
  · split <;> simpa using h

theorem Told.vanish (h : Told uses received p) : Told (uses ++ [.vanish]) received p.dropTransport := by
  refine ⟨?_, ?_, fun ha => absurd ha Bool.noConfusion, fun hl ht => ?_⟩
  · simpa [dropTransport] using h.terminated
  · simp [dropTransport]
  · simpa [dropTransport] using h.events hl ht

theorem Told.dropHandle (h : Told uses received p) : Told uses received p.dropHandle :=
  ⟨h.terminated, h.attached, h.commands, h.events⟩

theorem Told.dropEvents (h : Told uses received p) : Told uses received p.dropEvents :=
  ⟨h.terminated, h.attached, h.commands, fun hl => absurd hl Bool.noConfusion⟩

/-- Nothing is received meanwhile: every command waits. -/
theorem Passes.told (h : Passes {} uses p) : Told uses [] p := by
  induction h with
  | refl => exact .start
  | emit e _ ha ih => exact ih.emit ha e
  | vanish _ ih => exact ih.vanish
  | yield _ hn ih => exact ih.poll (polled_of_eq hn)
  | queue c _ ih => exact ih.queue c
  | dropHandle _ ih => exact ih.dropHandle
  | dropEvents _ ih => exact ih.dropEvents

/-! ### What can be taken -/

/-- An event that can be taken is there to be polled. -/
theorem nextEvent_of_hasEvent (h : p.hasEvent) : ∃ q e, p.nextEvent = (q, .ready e) := by
  simp only [hasEvent, Bool.and_eq_true, Bool.not_eq_true', Bool.or_eq_true,
    List.isEmpty_eq_false_iff] at h
  obtain ⟨⟨-, ht⟩, he⟩ := h
  unfold nextEvent
  rw [if_neg (by simp [ht])]
  cases hevents : p.events with
  | cons e rest => exact ⟨_, _, rfl⟩
  | nil =>
    have ha : p.attached = false := by simpa [hevents] using he
    exact ⟨_, _, by dsimp only; rw [if_neg (by simp [ha])]⟩

theorem hasEvent_of_nextEvent {e : Event} (hl : p.listening) (h : p.nextEvent = (q, .ready e)) :
    p.hasEvent := by
  obtain ⟨ht, -⟩ := nextEvent_ready h
  unfold nextEvent at h
  rw [if_neg (by simp [ht])] at h
  cases hevents : p.events with
  | cons => simp [hasEvent, hl, ht, hevents]
  | nil =>
    cases ha : p.attached with
    | false => simp [hasEvent, hl, ht, ha]
    | true => simp [hevents, ha] at h

/-- Nothing waits on a line that listens: all that was emitted has been taken, and the transport is
there. -/
theorem Told.caught_up (h : Told uses received p) (hl : p.listening)
    (ht : p.terminated = false) (he : p.hasEvent = false) :
    yielded uses = emitted uses ∧ .vanish ∉ uses := by
  have hnone : p.events = [] ∧ p.attached := by
    simpa [hasEvent, hl, ht] using he
  refine ⟨?_, fun hv => ?_⟩
  · rw [← h.events hl ht, hnone.1, List.append_nil]
  · simp [h.attached.mpr hv] at hnone

end Line

end RobotBridge
