import RobotBridge.Proofs.WebSocket.Course

/-! What a connection's task tells the session, for every order in which things happen to it: the trace of
its transport, and why it may end without a word. -/
namespace RobotBridge.WebSocket

open Line.Pair (emitted yielded queued received handlesLeft due)

/-! ### What every course keeps -/

/-- Why a task may end without a word: the session took no events when the connection opened, or it
has no handle left and has queued no close command. -/
inductive Deserted (deeds : List Line.Deed) : Prop
  | gone {before later : List Line.Deed} : deeds = before ++ .emit .opened false :: later →
      .dropEvents ∈ before → Deserted deeds
  | abandoned {before later : List Line.Deed} : deeds = before ++ .receive .ended :: later →
      handlesLeft before = 0 → received before = queued before →
      (∀ code, .close code ∉ queued before) → Deserted deeds

theorem Deserted.append {deeds : List Line.Deed} (h : Deserted deeds) (more : List Line.Deed) :
    Deserted (deeds ++ more) := by
  cases h with
  | gone hsplit hgone => exact .gone (by rw [hsplit, List.append_assoc, List.cons_append]) hgone
  | abandoned hsplit hleft hall hnone =>
    exact .abandoned (by rw [hsplit, List.append_assoc, List.cons_append]) hleft hall hnone

/-- The task is over, or will be, without a terminal event. -/
def Silent (c : Course) : Prop :=
  c.task.transport.phase = .leaving ∨
    c.task.transport.phase = .finished ∧ (emitted c.deeds).any Event.isTerminal = false

structure Sound (connectTimeout : Duration) (c : Course) : Prop where
  comes : c.task.pair.Comes c.deeds
  timeout : c.task.transport.connectTimeout = connectTimeout
  attached : c.task.pair.line.attached = decide (c.task.transport.phase ≠ .finished)
  tells : Tells connectTimeout c.inputs c.task.transport.phase (emitted c.deeds)
  /-- What was received was carried out. -/
  commands : received c.deeds = c.inputs.filterMap Input.command?
  /-- No command to close has been received while frames pass. -/
  unclosed : c.task.transport.phase = .connecting ∨ c.task.transport.phase = .pumping →
    ∀ code, .close code ∉ received c.deeds
  deserted : Silent c → Deserted c.deeds

section Sound

variable {connectTimeout : Duration} {c c' : Course} {i : Input} {before : List Line.Deed}
variable {pair : Line.Pair}

/-- A poll that ends quietly found that no command can come. -/
theorem eq_abandoned (h : i.ending? = some .quiet) : ∃ written, i = .abandoned written := by
  unfold Input.ending? at h
  split at h <;> first | exact ⟨_, rfl⟩ | cases h

theorem Learns.spec (h : Learns c i before pair) (hs : Sound connectTimeout c) :
    pair.Comes (c.deeds ++ before) ∧ pair.line.attached = c.task.pair.line.attached ∧
      emitted before = [] ∧ Line.Pair.received before = i.command?.toList := by
  have there (hp : c.task.transport.phase = .pumping) : c.task.pair.line.attached := by
    rw [hs.attached, hp]
    rfl
  have kept : c.task.pair.line.nextCommand.1.attached = c.task.pair.line.attached := by
    obtain ⟨_, hnext⟩ := c.task.pair.line.nextCommand_frame
    rw [hnext]
  cases h with
  | command hp hready hi =>
    exact ⟨hs.comes.step (hready ▸ .receive (there hp)), kept, rfl, hi ▸ rfl⟩
  | abandoned hp hended => exact ⟨hs.comes.step (hended ▸ .receive (there hp)), kept, rfl, rfl⟩
  | _ => exact ⟨by simpa using hs.comes, rfl, rfl, rfl⟩

/-- Commands are received while frames pass, and one to close ends that. -/
theorem Learns.not_open {code : UInt16} (h : Learns c i before pair)
    (hclose : i.command? = some (.close code)) :
    (c.task.transport.step i).1.phase ≠ .connecting ∧ (c.task.transport.step i).1.phase ≠ .pumping := by
  cases h with
  | command hp =>
    cases i with
    | close code written =>
      rw [Transport.step, hp]
      cases written <;> exact ⟨Phase.noConfusion, Phase.noConfusion⟩
    | _ => simp [Input.command?] at hclose
  | _ => contradiction

theorem react_open {p : Phase} (h : (Transport.react connectTimeout p i).1 = .connecting ∨
    (Transport.react connectTimeout p i).1 = .pumping) : p = .connecting ∨ p = .pumping := by
  unfold Transport.react at h
  split at h <;> simp_all

/-- A task leaves without a word only so. -/
theorem react_silent {p : Phase} (h : (Transport.react connectTimeout p i).1 = .leaving ∨
    (Transport.react connectTimeout p i).1 = .finished ∧
      (Transport.react connectTimeout p i).2.any Event.isTerminal = false) :
    p = .leaving ∨ p = .finished ∨ (p = .connecting ∧ ∃ written, i = .refused written) ∨
      (p = .pumping ∧ ∃ written, i = .abandoned written) := by
  cases p with
  | leaving => exact .inl rfl
  | finished => exact .inr (.inl rfl)
  | connecting =>
    cases i with
    | refused written => exact .inr (.inr (.inl ⟨rfl, written, rfl⟩))
    | _ => simp [Transport.react, Event.isTerminal] at h
  | closing code =>
    rw [react_closing] at h
    split at h <;> simp [Event.isTerminal] at h
  | pumping =>
    have hreact := react_pumping connectTimeout i
    cases hi : i.ending? with
    | none => simp [hi] at hreact; simp [hreact] at h
    | some ending =>
      cases ending with
      | told e => simp [hi] at hreact; simp [hreact, ending_isTerminal hi] at h
      | closing code => simp [hi] at hreact; simp [hreact] at h
      | quiet => exact .inr (.inr (.inr ⟨rfl, eq_abandoned hi⟩))

theorem Sound.start : Sound connectTimeout { task := { transport := { connectTimeout } } } where
  comes := .start
  timeout := rfl
  attached := rfl
  tells := .connecting (List.forall_mem_nil _)
  commands := rfl
  unclosed _ _ := List.not_mem_nil
  deserted h := by
    rcases h with h | ⟨h, -⟩
    · exact Phase.noConfusion h
    · exact Phase.noConfusion h

theorem Sound.aside (hs : Sound connectTimeout c) {deed : Line.Deed} (hdoes : c.task.pair.Does deed pair)
    (hemitted : emitted [deed] = []) (hreceived : received [deed] = []) (hdrop : deed ≠ .dropTransport) :
    Sound connectTimeout { c with task := { c.task with pair }, deeds := c.deeds ++ [deed] } := by
  have hcomes := hs.comes.step hdoes
  have hkept : pair.line.attached = c.task.pair.line.attached := by
    have hiff : pair.line.attached = false ↔ c.task.pair.line.attached = false := by
      rw [hcomes.told.attached, hs.comes.told.attached]
      simp [hdrop.symm]
    rw [Bool.eq_iff_iff, ← Bool.not_eq_false, ← Bool.not_eq_false, hiff]
  have hsame : emitted (c.deeds ++ [deed]) = emitted c.deeds := by
    rw [Line.Pair.emitted_append, hemitted, List.append_nil]
  have hcommands : received (c.deeds ++ [deed]) = received c.deeds := by
    rw [Line.Pair.received_append, hreceived, List.append_nil]
  refine ⟨hcomes, hs.timeout, hkept.trans hs.attached, hsame ▸ hs.tells, hcommands.trans hs.commands,
    hcommands ▸ hs.unclosed, fun hsilent => (hs.deserted ?_).append _⟩
  simpa only [Silent, hsame] using hsilent

/-- The session that does not take that the connection is open has gone. -/
theorem Sound.gone (hs : Sound connectTimeout c) (hp : c.task.transport.phase = .connecting)
    (hrefused : (c.task.pair.line.emit .opened).2 = false) : .dropEvents ∈ c.deeds := by
  have told := hs.comes.told
  have there : c.task.pair.line.attached := by rw [hs.attached, hp]; rfl
  have hnothing : due c.deeds = [] := by
    have hemitted : emitted c.deeds = [] := (hp ▸ hs.tells).eq_nil
    have hthere : .dropTransport ∉ c.deeds := by rw [← told.attached, there]; exact Bool.noConfusion
    rw [due, hemitted, if_neg hthere]
    rfl
  have hlive : (yielded c.deeds).any Event.isTerminal = false := by
    have hnone : yielded c.deeds = [] := List.prefix_nil.mp (hnothing ▸ hs.comes.yields)
    rw [hnone]
    rfl
  refine Decidable.not_not.mp fun hlistens => ?_
  have := (told.emit_result there .opened).mpr ⟨hlistens, hlive⟩
  exact absurd this (ne_true_of_eq_false hrefused)

/-- A task that has learned something and leaves without a word was deserted. -/
theorem Sound.learn_deserted (hs : Sound connectTimeout c) (h : Learns c i before pair)
    (hsilent : (c.task.transport.step i).1.phase = .leaving ∨
      (c.task.transport.step i).1.phase = .finished ∧
        (emitted c.deeds ++ (c.task.transport.step i).2).any Event.isTerminal = false) :
    Deserted (c.deeds ++ before ++ (pair.run (Task.follow c.task.transport i)).2) := by
  rw [List.any_append, Bool.or_eq_false_iff] at hsilent
  rcases react_silent (hsilent.imp_right fun hlast => ⟨hlast.1, hlast.2.2⟩) with
    hp | hp | ⟨hp, written, rfl⟩ | ⟨hp, written, rfl⟩
  · rw [List.append_assoc]
    exact (hs.deserted (.inl hp)).append _
  · have hunsaid := hsilent.resolve_left fun hleaving => by
      rw [Transport.step, hp, react_finished] at hleaving
      contradiction
    rw [List.append_assoc]
    exact (hs.deserted (.inr ⟨hp, hunsaid.2.1⟩)).append _
  · cases h with
    | refused hrefused =>
      have hevents : (c.task.transport.step (.refused written)).2 = [.opened] := by
        rw [Transport.step, hp]
        cases written <;> rfl
      have there : c.task.pair.line.attached := by rw [hs.attached, hp]; rfl
      obtain ⟨later, hfirst⟩ :
          ∃ later, (c.task.pair.run (Task.follow c.task.transport (.refused written))).2 =
            .emit .opened false :: later := by
        rw [Task.follow, hevents, List.map_singleton, List.singleton_append, Line.Pair.run,
          Line.Pair.perform, if_pos there, ← hrefused]
        exact ⟨_, rfl⟩
      rw [List.append_nil, hfirst]
      exact .gone rfl (hs.gone hp hrefused)
    | command _ _ hi => contradiction
  · cases h with
    | abandoned _ hended =>
      have told := hs.comes.told
      have there : c.task.pair.line.attached := by rw [hs.attached, hp]; rfl
      obtain ⟨hleft, hall⟩ := (told.receive_result there).1.mp hended
      rw [List.append_assoc]
      exact .abandoned rfl hleft hall (hall ▸ hs.unclosed (.inr hp))
    | command _ _ hi => contradiction

theorem Sound.learn (hs : Sound connectTimeout c) (h : Learns c i before pair) :
    Sound connectTimeout
      { task := ⟨(c.task.transport.step i).1, (pair.run (Task.follow c.task.transport i)).1⟩
        deeds := c.deeds ++ before ++ (pair.run (Task.follow c.task.transport i)).2
        inputs := c.inputs ++ [i] } := by
  obtain ⟨hcomes, hsame, hbefore, hcommand⟩ := h.spec hs
  obtain ⟨hemitted, hreceived, hattached⟩ := follow_spec (hsame.trans hs.attached) i
  have htold : emitted (c.deeds ++ before ++ (pair.run (Task.follow c.task.transport i)).2) =
      emitted c.deeds ++ (c.task.transport.step i).2 := by
    rw [Line.Pair.emitted_append, Line.Pair.emitted_append, hbefore, hemitted, List.append_nil]
  have hcommands : received (c.deeds ++ before ++ (pair.run (Task.follow c.task.transport i)).2) =
      received c.deeds ++ i.command?.toList := by
    rw [Line.Pair.received_append, Line.Pair.received_append, hcommand, hreceived, List.append_nil]
  refine ⟨hcomes.run _, hs.timeout, hattached, ?_, ?_, fun hopen code hclose => ?_, fun hsilent => ?_⟩
  · have hstep := hs.tells.step i
    rw [htold]
    rw [← hs.timeout] at hstep ⊢
    exact hstep
  · rw [hcommands, hs.commands, List.filterMap_append]
    cases hi : i.command? <;> simp [hi]
  · rw [hcommands, List.mem_append, Option.mem_toList] at hclose
    rcases hclose with hclose | hclose
    · exact hs.unclosed (react_open hopen) code hclose
    · exact hopen.elim (h.not_open hclose).1 (h.not_open hclose).2
  · rw [Silent, htold] at hsilent
    exact hs.learn_deserted h hsilent

theorem Sound.go (hs : Sound connectTimeout c) (h : Goes c c') : Sound connectTimeout c' := by
  cases h with
  | still => exact hs
  | aside hdoes hemitted hreceived hdrop => exact hs.aside hdoes hemitted hreceived hdrop
  | learn h => exact hs.learn h

theorem Sound.foldl (hs : Sound connectTimeout c) (happenings : List Happening) :
    Sound connectTimeout (happenings.foldl Course.go c) := by
  induction happenings generalizing c with
  | nil => exact hs
  | cons happening happenings ih =>
    have there (hp : c.task.transport.phase = .pumping) : c.task.pair.line.attached := by
      rw [hs.attached, hp]
      rfl
    exact ih (hs.go (goes happening there))

end Sound

/-! ### What a task learns -/

def waiting? (deeds : List Line.Deed) : Poll Command :=
  match (queued deeds).drop (received deeds).length with
  | command :: _ => .ready command
  | [] => if handlesLeft deeds = 0 then .ended else .pending

/-- What a task in some phase, with what was done on its line, learns of the next thing that happens. -/
def learned? (p : Phase) (deeds : List Line.Deed) : Happening → Option Input
  | .session _ => none
  | .connected written =>
    if .dropTransport ∉ deeds ∧ .dropEvents ∉ deeds ∧ (yielded deeds).any Event.isTerminal = false then
      some .connected
    else some (.refused written)
  | .unreachable reason => some (.unreachable reason)
  | .connectTimeout => some .connectTimeout
  | .command written => if p = .pumping then Input.ofPoll? written (waiting? deeds) else none
  | .received message => some (.received message)
  | .closeTimeout => some .closeTimeout

theorem nextCommand_eq {deeds : List Line.Deed} {pair : Line.Pair} (h : pair.Told deeds)
    (ha : pair.line.attached) : pair.line.nextCommand.2 = waiting? deeds := by
  have hrest : (queued deeds).drop (received deeds).length = pair.line.commands := by
    rw [← h.commands ha, List.drop_left]
  cases hcommands : pair.line.commands with
  | cons command rest => simp only [waiting?, Line.nextCommand, hrest, hcommands]
  | nil =>
    simp only [waiting?, Line.nextCommand, hrest, hcommands, h.held, h.handlesLeft]
    cases pair.handles <;> rfl

theorem Sound.input?_eq {connectTimeout : Duration} {c : Course} (hs : Sound connectTimeout c) (h : Happening) :
    c.task.input? h = learned? c.task.transport.phase c.deeds h := by
  have told := hs.comes.told
  cases h with
  | connected written =>
    have htaken : (c.task.pair.line.emit .opened).2 ↔ .dropTransport ∉ c.deeds ∧ .dropEvents ∉ c.deeds ∧
        (yielded c.deeds).any Event.isTerminal = false := by
      rw [← told.attached, ← told.listening, ← told.terminated, Line.emit]
      cases c.task.pair.line.attached <;> cases c.task.pair.line.listening <;>
        cases c.task.pair.line.terminated <;> simp
    rw [Task.input?, learned?]
    by_cases hset : (c.task.pair.line.emit .opened).2
    · rw [if_pos hset, if_pos (htaken.mp hset)]
    · rw [if_neg hset, if_neg (mt htaken.mpr hset)]
  | command written =>
    rw [Task.input?, learned?]
    by_cases hp : c.task.transport.phase = .pumping
    · have there : c.task.pair.line.attached := by rw [hs.attached, hp]; rfl
      have htakes : c.task.transport.takesCommands := decide_eq_true hp
      rw [if_pos htakes, if_pos hp, nextCommand_eq told there]
    · have htakes : ¬c.task.transport.takesCommands := mt of_decide_eq_true hp
      rw [if_neg htakes, if_neg hp]
  | session | unreachable | connectTimeout | received | closeTimeout => rfl

theorem Course.go_inputs (c : Course) (h : Happening) :
    (c.go h).inputs = c.inputs ++ (c.task.input? h).toList := by
  unfold Course.go
  cases c.task.input? h with
  | none => exact (List.append_nil _).symm
  | some i => rfl

/-- Each thing that happens adds what is learned of it, in order: an outcome of the handshake, a frame and
the end of a timer as they come, a command when one is there. -/
theorem Course.inputs_snoc (connectTimeout : Duration) (happenings : List Happening) (h : Happening) :
    (Course.run connectTimeout (happenings ++ [h])).inputs =
      (Course.run connectTimeout happenings).inputs ++
        (learned? (Course.run connectTimeout happenings).task.transport.phase
          (Course.run connectTimeout happenings).deeds h).toList := by
  have hs : Sound connectTimeout (Course.run connectTimeout happenings) := Sound.start.foldl happenings
  have hgo : Course.run connectTimeout (happenings ++ [h]) = (Course.run connectTimeout happenings).go h := by
    rw [Course.run, List.foldl_append]
    rfl
  rw [hgo, Course.go_inputs, hs.input?_eq]

/-! ### The trace of a task -/

structure TraceContract (connectTimeout : Duration) (c : Course) : Prop where
  tells : Tells connectTimeout c.inputs c.task.transport.phase (emitted c.deeds)
  /-- The commands that were received were carried out, in order. -/
  carries : received c.deeds = c.inputs.filterMap Input.command?
  /-- A task that is over has told one terminal event, the last, unless it was deserted. -/
  ends : c.task.transport.phase = .finished →
    (∃ es e, emitted c.deeds = es ++ [e] ∧ e.isTerminal ∧ es.any Event.isTerminal = false) ∨
      (emitted c.deeds).any Event.isTerminal = false ∧ Deserted c.deeds
  /-- Only a deserted task leaves without a word. -/
  leaves : c.task.transport.phase = .leaving →
    (emitted c.deeds).any Event.isTerminal = false ∧ Deserted c.deeds

theorem TraceContract.kept (connectTimeout : Duration) (happenings : List Happening) :
    TraceContract connectTimeout (Course.run connectTimeout happenings) := by
  have hs : Sound connectTimeout (Course.run connectTimeout happenings) :=
    Sound.start.foldl happenings
  refine ⟨hs.tells, hs.commands, fun hover => ?_, fun hleaving => ?_⟩
  · exact (hover ▸ hs.tells).over.imp_right fun hnone => ⟨hnone, hs.deserted (.inr ⟨hover, hnone⟩)⟩
  · exact ⟨(hleaving ▸ hs.tells).leaving, hs.deserted (.inl hleaving)⟩

/-- The trace of a task, whatever happens to it and in whatever order, and what the task learns of the
next thing that happens. -/
theorem task_trace (connectTimeout : Duration) (happenings : List Happening) :
    TraceContract connectTimeout (Course.run connectTimeout happenings) ∧
    ∀ h, (Course.run connectTimeout (happenings ++ [h])).inputs =
      (Course.run connectTimeout happenings).inputs ++
        (learned? (Course.run connectTimeout happenings).task.transport.phase
          (Course.run connectTimeout happenings).deeds h).toList :=
  ⟨.kept connectTimeout happenings, Course.inputs_snoc connectTimeout happenings⟩

end RobotBridge.WebSocket
