import RobotBridge.Proofs.Session.View

/-! Every act and every move is one of the things that can happen to the connections of a session. -/
namespace RobotBridge.Session
open Table (Input Output Change)

variable {α : Type}

variable {s s' : Session α}

/-! ### Lines -/

theorem performExchange_eq (p : Line) (actions : List Exchange.Action) :
    performExchange p actions =
      ((Exchange.commands actions).foldl Line.queue p, (Exchange.outcomes actions).getLast?) := by
  induction actions generalizing p with
  | nil => rfl
  | cons action actions ih =>
    cases action with
    | send | close => simp [performExchange, ih]
    | settle outcome =>
      simp only [performExchange, ih, Exchange.commands_cons, Exchange.outcomes_cons]
      cases hl : (Exchange.outcomes actions).getLast? <;> simp [List.getLast?_cons, hl]

theorem setLine_lines {n : Nat} {o : Owner} {p : Line} (h : s.lines[n]? = some (o, p))
    (f : Line → Line) : (s.setLine n f).lines = s.lines.set n (o, f p) := by
  refine List.ext_getElem? fun m => ?_
  simp only [setLine, List.getElem?_modify, List.getElem?_set]
  split
  · next hm =>
    subst hm
    rw [h, if_pos (List.getElem?_eq_some_iff.mp h).1]
    rfl
  · simp

theorem view_setLine {n : Nat} {o : Owner} {p : Line} (h : s.lines[n]? = some (o, p)) (f : Line → Line) :
    (s.setLine n f).view = { s.view with lines := s.lines.set n (o, f p) } := by
  rw [view, setLine_lines h]
  rfl

theorem setLine_of_none {n : Nat} (h : s.line? n = none) (f : Line → Line) : s.setLine n f = s := by
  rw [line?, Option.map_eq_none_iff, List.getElem?_eq_none_iff] at h
  rw [setLine, List.modify_eq_self h]

theorem setLine_setLine (s : Session α) (n : Nat) (f g : Line → Line) :
    (s.setLine n f).setLine n g = s.setLine n fun p => g (f p) := by
  have hm : (s.lines.modify n fun q => (q.1, f q.2)).modify n (fun q => (q.1, g q.2)) =
      s.lines.modify n fun q => (q.1, g (f q.2)) := by
    refine List.ext_getElem? fun m => ?_
    simp only [List.getElem?_modify]
    split <;> simp [Function.comp_def]
  exact congrArg (fun lines => { s with lines }) hm

theorem line?_eq_some {n : Nat} {p : Line} (h : s.line? n = some p) : ∃ o, s.lines[n]? = some (o, p) := by
  obtain ⟨⟨o, q⟩, hl, rfl⟩ := Option.map_eq_some_iff.mp h
  exact ⟨o, hl⟩

/-! ### Errands -/

theorem errand?_setCall {id : Nat} {f : CallState α → CallState α}
    (h : ∀ c, s.call? id = some c → (f c).stage.errand? = c.stage.errand?) :
    (s.setCall id f).errand? = s.errand? := by
  funext j
  simp only [errand?, call?, setCall, List.getElem?_modify]
  split
  · next hj =>
    subst hj
    cases hc : s.calls[id]? with
    | none => rfl
    | some c => exact h c hc
  · simp

theorem errand?_setStage {id : Nat} {stage : Stage α} (h : (s.call? id).isSome) :
    (s.setStage id stage).errand? = Function.update s.errand? id stage.errand? := by
  obtain ⟨c, hc⟩ := Option.isSome_iff_exists.mp h
  funext j
  simp only [errand?, call?, setStage, setCall, List.getElem?_modify, Function.update_apply] at hc ⊢
  split
  · next hj =>
    subst hj
    simp [hc]
  · next hj => simp [Ne.symm hj]

theorem stage?_setStage {id : Nat} {old new : Stage α} (h : s.stage? id = some old) :
    (s.setStage id new).stage? id = some new := by
  obtain ⟨c, hc, rfl⟩ := Option.map_eq_some_iff.mp h
  simp_all [stage?, call?, setStage, setCall]

theorem occurs_of_view_eq (h : s'.view = s.view) : Occurs s.view [] s'.view := by
  rw [h]
  exact .idle

theorem befalls_of_view_eq (h : s'.view = s.view) : Befalls s.view [] s'.view := by
  rw [h]
  exact .passes (Nat.le_refl s.view.clock)

theorem stage?_eq_some {id : Nat} {stage : Stage α} (h : s.stage? id = some stage) :
    ∃ c, s.call? id = some c ∧ c.stage = stage := Option.map_eq_some_iff.mp h

theorem errand?_of_stage? {id : Nat} {stage : Stage α} (h : s.stage? id = some stage) :
    s.errand? id = stage.errand? := by
  obtain ⟨c, hc, rfl⟩ := stage?_eq_some h
  simp [errand?, hc]

/-- A call comes to another stage. -/
theorem view_setStage {id : Nat} {old new : Stage α} (h : s.stage? id = some old) :
    (s.setStage id new).view = { s.view with errands := Function.update s.errand? id new.errand? } := by
  obtain ⟨c, hc, rfl⟩ := stage?_eq_some h
  rw [view, errand?_setStage (by simp [hc])]
  rfl

theorem view_setStage_same {id : Nat} {old new : Stage α} (h : s.stage? id = some old)
    (he : new.errand? = old.errand?) : (s.setStage id new).view = s.view := by
  rw [view_setStage h, he, ← errand?_of_stage? h, Function.update_eq_self]
  rfl

/-! ### Moves of calls -/

private theorem beginExchange_view {id : Nat} {stage : Stage α} (h : s.stage? id = some stage) (x : Exchange)
    (next : Exchange.Outcome → Script α) :
    (s.beginExchange id x next).1.view =
      { s.view with
        lines := s.lines ++ [(.call id, {})]
        errands := Function.update s.errand? id
          (some ⟨s.lines.length, x, s.clock + s.timeout.nanoseconds, next⟩) } := by
  rw [beginExchange, view_setStage (s := s.openLine (.call id)) h]
  rfl

private theorem resume_occurs {id : Nat} {script : Script α} (h : s.stage? id = some (.ready script)) :
    Occurs s.view (s.notes (.resume id) (s.resume id script).1) (s.resume id script).1.view := by
  simp only [notes, h]
  cases script with
  | request channel next | publish channel dtype data next =>
    simp only [resume, beginExchange_view h, Script.oneShot?]
    exact .begins (errand?_of_stage? h) rfl
  | subscribe | unsubscribe | list | shutdown =>
    exact occurs_of_view_eq (view_setStage_same (s := { s with commands := _ }) h rfl)
  | finish | print | stream => exact occurs_of_view_eq (view_setStage_same h rfl)

/-- A call does something on a line and comes to another stage. -/
private theorem view_setLine_setStage {id n : Nat} {old : Stage α} {o : Owner} {p : Line}
    (h : s.stage? id = some old) (hl : s.lines[n]? = some (o, p)) (f : Line → Line) (new : Stage α) :
    ((s.setLine n f).setStage id new).view = { s.view with
        lines := s.lines.set n (o, f p)
        errands := Function.update s.errand? id new.errand? } ∧
      ((s.setLine n f).setStage id new).stage? id = some new := by
  have hs : (s.setLine n f).stage? id = some old := h
  refine ⟨?_, stage?_setStage hs⟩
  rw [view_setStage hs, view, setLine_lines hl]
  rfl

private theorem continueExchange_view {id line deadline : Nat} {x : Exchange}
    {next : Exchange.Outcome → Script α} {stage : Stage α} {o : Owner} {p : Line}
    (h : s.stage? id = some stage) (hl : s.lines[line]? = some (o, p)) (q : Line)
    (r : Exchange × List Exchange.Action) :
    let t := s.continueExchange id line q r.1 deadline next r.2
    t.view = s.view.carryOn id o ⟨line, x, deadline, next⟩ q r ∧
      exchangeNotes line r.2 (t.stage? id) = Errand.notes ⟨line, x, deadline, next⟩ r.2 := by
  unfold continueExchange View.carryOn exchangeNotes Errand.notes
  rw [performExchange_eq]
  cases (Exchange.outcomes r.2).getLast? with
  | none =>
    obtain ⟨hv, hs⟩ := view_setLine_setStage h hl
      (fun _ => (Exchange.commands r.2).foldl Line.queue q) (.exchanging line r.1 deadline next)
    exact ⟨hv, by dsimp only; rw [hs]; rfl⟩
  | some outcome =>
    obtain ⟨hv, hs⟩ := view_setLine_setStage h hl
      (fun _ => ((Exchange.commands r.2).foldl Line.queue q).dropSession) (.ready (next outcome))
    dsimp only
    rw [endExchange, setLine_setLine]
    exact ⟨hv, by rw [hs]; rfl⟩

private theorem terminated_of_ended {p q : Line} (h : p.nextEvent = (q, .ended)) : p.terminated := by
  unfold Line.nextEvent at h
  split at h
  · assumption
  · split at h
    · cases h
    · split at h <;> cases h

private theorem take_occurs {id line deadline : Nat} {x : Exchange} {next : Exchange.Outcome → Script α}
    (h : s.stage? id = some (.exchanging line x deadline next))
    (ht : s.takeEvent id line x deadline next = some s') :
    Occurs s.view (s.notes (.take id) s') s'.view := by
  have he : s.view.errands id = some ⟨line, x, deadline, next⟩ := errand?_of_stage? h
  unfold takeEvent at ht
  cases hp : s.line? line with
  | none => simp [hp] at ht
  | some p =>
    obtain ⟨o, hl⟩ := line?_eq_some hp
    simp only [hp, Option.map_some] at ht
    split at ht
    · next q e hn =>
      have ht : s.continueExchange id line q (x.onEvent e).1 deadline next (x.onEvent e).2 = s' :=
        Option.some.inj ht
      have hn := Option.some.inj hn
      obtain ⟨hv, hnotes⟩ := continueExchange_view (x := x) h hl q (x.onEvent e)
      rw [ht] at hv hnotes
      simp only [notes, h, hp, Option.map_some, hn]
      rw [hnotes, hv]
      exact .feeds he hl hn
    · next hn =>
      obtain rfl := Option.some.inj ht
      have hn := Option.some.inj hn
      obtain ⟨hv, hs⟩ := view_setLine_setStage h hl Line.dropSession
        (.ready (next (endedUnsettled x.channel)))
      simp only [notes, h, hp, Option.map_some, hn, endExchange, hs, hv]
      exact .falls he hl (terminated_of_ended hn)
    · contradiction
    · contradiction

private theorem expire_occurs {id line deadline : Nat} {x : Exchange} {next : Exchange.Outcome → Script α}
    (h : s.stage? id = some (.exchanging line x deadline next))
    (ht : s.expire id line x deadline next = some s') :
    Occurs s.view (s.notes (.expire id) s') s'.view := by
  have he : s.view.errands id = some ⟨line, x, deadline, next⟩ := errand?_of_stage? h
  unfold expire at ht
  split at ht
  · contradiction
  · next p hp =>
    obtain ⟨o, hl⟩ := line?_eq_some hp
    split at ht
    · next hdue =>
      have ht : s.continueExchange id line p (x.onTimeout s.timeout).1 deadline next
        (x.onTimeout s.timeout).2 = s' := Option.some.inj ht
      obtain ⟨hv, hnotes⟩ := continueExchange_view (x := x) h hl p (x.onTimeout s.timeout)
      rw [ht] at hv hnotes
      simp only [notes, h]
      rw [hnotes, hv]
      exact .expires he hl hdue.1 (by simpa using hdue.2)
    · contradiction

private theorem look_occurs {id seen : Nat} {c : CallState α} {limit : Option Nat}
    {render : Envelope → String} {next : Bool → Script α} {effects : List (Effect α)}
    (hc : s.call? id = some c) (hs : c.stage = .streaming limit seen render next)
    (h : s.look id c limit seen render next = some (s', effects)) : Occurs s.view [] s'.view := by
  refine occurs_of_view_eq ?_
  unfold look at h
  split at h
  · obtain ⟨rfl, -⟩ := Prod.mk.inj (Option.some.inj h)
    rw [view, errand?_setCall (by exact fun _ _ => rfl)]
    rfl
  · obtain ⟨rfl, -⟩ := Prod.mk.inj (Option.some.inj h)
    rw [view, errand?_setCall fun c' hc' => ?_]
    · rfl
    · obtain rfl := Option.some.inj (hc.symm.trans hc')
      rw [hs]
      split <;> rfl
  · split at h
    · obtain ⟨rfl, -⟩ := Prod.mk.inj (Option.some.inj h)
      have hstage : s.stage? id = some c.stage := by simp [stage?, hc]
      exact view_setStage_same hstage (by rw [hs]; rfl)
    · contradiction

private theorem forward_occurs {n : Nat} (h : s.forward n = some s') :
    Occurs s.view (s.notes (.forward n) s') s'.view := by
  unfold forward at h
  split at h
  · next k p hl =>
    split at h
    · split at h
      · next q e hn =>
        have hline : s.line? n = some p := by simp [line?, hl]
        simp only [notes, hline, Option.map_some, hn]
        split at h
        · next hr =>
          obtain rfl := Option.some.inj h
          have hv := view_setLine (s := { s with events := s.events ++ [(k, e)] }) hl fun _ => q
          exact hv ▸ .forwards hr hl hn
        · next hr =>
          obtain rfl := Option.some.inj h
          rw [view_setLine hl]
          exact .deafens (eq_false_of_ne_true hr) hl hn
      · contradiction
    · contradiction
  · contradiction

theorem act_befalls (s : Session α) (a : Act α) : Befalls s.view (s.actNotes a) (s.act a).view := by
  cases a with
  | call script =>
    refine befalls_of_view_eq ?_
    unfold act
    dsimp only
    split
    · have he : errand? { s with calls := s.calls ++ [⟨.ready script, [], false⟩] } = s.errand? := by
        funext id
        simp only [errand?, call?]
        by_cases hid : id < s.calls.length
        · rw [List.getElem?_append_left hid]
        · rw [List.getElem?_append_right (Nat.le_of_not_lt hid), List.getElem?_eq_none (Nat.le_of_not_lt hid)]
          rcases id - s.calls.length with _ | j <;> simp
      rw [view, he]
      rfl
    · rfl
  | emit n e =>
    unfold actNotes act
    dsimp only
    cases hp : s.line? n with
    | none => exact befalls_of_view_eq (by rw [setLine_of_none hp])
    | some p =>
      obtain ⟨o, hl⟩ := line?_eq_some hp
      dsimp only
      rw [view_setLine hl]
      split
      · next ha => exact .emits e hl ha
      · next ha =>
        -- Without a transport there is nobody to emit, and the line stays as it is.
        have hsame : s.lines.set n (o, (p.emit e).1) = s.lines := by
          obtain ⟨hn, hget⟩ := List.getElem?_eq_some_iff.mp hl
          rw [Line.emit, if_neg (by simp [ha]), ← hget]
          exact List.set_getElem_self hn
        rw [hsame]
        exact .passes (Nat.le_refl s.clock)
  | dropTransport n =>
    unfold actNotes act
    dsimp only
    cases hp : s.line? n with
    | none => exact befalls_of_view_eq (by rw [setLine_of_none hp])
    | some p =>
      obtain ⟨o, hl⟩ := line?_eq_some hp
      rw [view_setLine hl]
      exact .vanishes hl
  | advance span => exact .passes (Nat.le_add_right ..)
  | detach => exact befalls_of_view_eq rfl

/-! ### Moves of the table -/

theorem ownerOf?_eq (lines : List (Owner × Line)) (n : Nat) :
    ownerOf? lines n = (lines.map Prod.fst)[n]? := List.getElem?_map.symm

theorem ownerOf?_eq_some {lines : List (Owner × Line)} {n : Nat} {o : Owner} :
    ownerOf? lines n = some o ↔ ∃ p, lines[n]? = some (o, p) := by
  simp [ownerOf?]

theorem lineOf?_eq_some {k n : Nat} (h : s.lineOf? k = some n) :
    ∃ p, s.lines[n]? = some (.table k, p) := by
  obtain ⟨hn, hk, -⟩ := List.findIdx?_eq_some_iff_getElem.mp h
  exact ⟨s.lines[n].2, by rw [List.getElem?_eq_getElem hn, ← of_decide_eq_true hk]⟩

theorem lineOf?_eq_none {k : Nat} (h : s.lineOf? k = none) (n : Nat) :
    ownerOf? s.lines n ≠ some (.table k) := by
  intro hn
  obtain ⟨p, hp⟩ := ownerOf?_eq_some.mp hn
  have hno := List.findIdx?_eq_none_iff.mp h _ (List.mem_of_getElem? hp)
  simp at hno

variable {lines lines' lines'' : List (Owner × Line)} {output : Output} {outputs : List Output}
  {before later : List (Note α)}

private theorem Carried.cons (h : Carried lines [output] before lines')
    (h' : Carried lines' outputs later lines'') :
    Carried lines (output :: outputs) (before ++ later) lines'' := by
  have ho (n : Nat) : ownerOf? lines' n = ownerOf? lines n := by rw [ownerOf?_eq, ownerOf?_eq, h.owners]
  refine ⟨h'.owners.trans h.owners, fun n o p hp => ?_, fun note hm => ?_, fun k c n hm hn hu => ?_⟩
  · obtain ⟨q, hq, hpq, hpass⟩ := h.kept n o p hp
    obtain ⟨r, hr, hqr, hpass'⟩ := h'.kept n o q hq
    refine ⟨r, hr, ?_, ?_⟩
    · rw [hqr, hpq]
    · rw [List.filterMap_append]
      exact hpass.trans hpass'
  · rcases List.mem_append.mp hm with hm | hm
    · obtain ⟨n, k, c, rfl, hn, hc⟩ := h.onlyQueue note hm
      exact ⟨n, k, c, rfl, hn, List.mem_singleton.mp hc ▸ List.mem_cons_self⟩
    · obtain ⟨n, k, c, rfl, hn, hc⟩ := h'.onlyQueue note hm
      exact ⟨n, k, c, rfl, ho n ▸ hn, List.mem_cons_of_mem _ hc⟩
  · rcases List.mem_cons.mp hm with rfl | hm
    · exact List.mem_append_left _ (h.queued k c n List.mem_cons_self hn hu)
    · refine List.mem_append_right _ (h'.queued k c n hm ?_ fun m hm => ?_)
      · rwa [ho]
      · exact hu m (ho m ▸ hm)

/-- Something is done to one line, and all others are left alone. -/
private theorem carried_one {n : Nat} {o : Owner} {p q : Line} (hp : lines[n]? = some (o, p))
    (hq : q = { p with commands := q.commands, held := q.held })
    (hpass : Line.Passes p (before.filterMap (Note.use? n)) q)
    (hnotes : ∀ note ∈ before, ∃ k c, note = .passed n (.queue c) ∧ o = .table k ∧ output = .command k c)
    (hout : ∀ k c, output = .command k c → o = .table k ∧ .passed n (.queue c) ∈ before) :
    Carried lines [output] before (lines.set n (o, q)) where
  owners := by
    refine List.ext_getElem? fun m => ?_
    simp only [List.getElem?_map, List.getElem?_set]
    split
    · next hm =>
      subst hm
      rw [hp, if_pos (List.getElem?_eq_some_iff.mp hp).1]
      rfl
    · rfl
  kept m o' p' hm := by
    by_cases hmn : n = m
    · subst hmn
      obtain ⟨rfl, rfl⟩ := Prod.mk.inj (Option.some.inj (hp.symm.trans hm))
      exact ⟨q, List.getElem?_set_self (List.getElem?_eq_some_iff.mp hp).1, hq, hpass⟩
    · refine ⟨p', by rw [List.getElem?_set_ne hmn, hm], rfl, ?_⟩
      have hnone : before.filterMap (Note.use? m) = [] := by
        refine List.filterMap_eq_nil_iff.mpr fun note hnote => ?_
        obtain ⟨k, c, rfl, -⟩ := hnotes note hnote
        simp [hmn]
      rw [hnone]
      exact .refl
  onlyQueue note hm := by
    obtain ⟨k, c, hnote, rfl, rfl⟩ := hnotes note hm
    exact ⟨n, k, c, hnote, ownerOf?_eq_some.mpr ⟨p, hp⟩, List.mem_singleton_self _⟩
  queued k c m hm hk hu := by
    obtain ⟨rfl, hin⟩ := hout k c (List.mem_singleton.mp hm).symm
    obtain rfl := hu n (ownerOf?_eq_some.mpr ⟨p, hp⟩)
    exact hin

private theorem carried_none (hout : ∀ k c n, output = .command k c → ownerOf? lines n ≠ some (.table k)) :
    Carried (α := α) lines [output] [] lines where
  owners := rfl
  kept _ _ p hp := ⟨p, hp, rfl, .refl⟩
  onlyQueue _ hm := absurd hm List.not_mem_nil
  queued k c n hm hn _ := absurd hn (hout k c n (List.mem_singleton.mp hm).symm)

theorem carried_output (s : Session α) (output : Output) (h : ∀ k c, output ≠ .opened k c) :
    Carried s.lines [output] (s.outputNote output) (s.applyOutput output).1.lines := by
  cases output with
  | opened k c => exact absurd rfl (h k c)
  | command k c =>
    simp only [applyOutput, onTableLine, outputNote]
    cases hk : s.lineOf? k with
    | none =>
      refine carried_none fun j d n hj => ?_
      obtain ⟨rfl, -⟩ := Output.command.inj hj
      exact lineOf?_eq_none hk n
    | some n =>
      obtain ⟨p, hp⟩ := lineOf?_eq_some hk
      dsimp only
      rw [setLine_lines hp]
      refine carried_one hp ?_ ?_ ?_ ?_
      · obtain ⟨_, hqueue⟩ := p.queue_frame c
        rw [hqueue]
      · simpa using Line.Passes.refl.queue c
      · simp
      · simp
  | dropped k =>
    simp only [applyOutput, onTableLine, outputNote]
    cases hk : s.lineOf? k with
    | none => exact carried_none (by simp)
    | some n =>
      obtain ⟨p, hp⟩ := lineOf?_eq_some hk
      dsimp only
      rw [setLine_lines hp]
      exact carried_one hp rfl Line.Passes.refl.dropHandle (by simp) (by simp)
  | handled | answered | listed | stopped | released => exact carried_none (by simp)

private theorem carried_outputs (s : Session α) {outputs : List Output} (h : ∀ k c, .opened k c ∉ outputs) :
    Carried s.lines outputs (s.outputNotes outputs) (s.applyOutputs outputs).1.lines := by
  induction outputs generalizing s with
  | nil => exact ⟨rfl, fun n o p hp => ⟨p, hp, rfl, .refl⟩, by simp [outputNotes], by simp⟩
  | cons output outputs ih =>
    have hone := carried_output s output fun k c ho => h k c (ho ▸ List.mem_cons_self)
    exact hone.cons (ih _ fun k c hm => h k c (List.mem_cons_of_mem _ hm))

theorem Stage.errand?_answers (stage : Stage α) :
    (∀ r, (stage.answer r).errand? = stage.errand?) ∧ (∀ r, (stage.answerList r).errand? = stage.errand?) ∧
      stage.answerStop.errand? = stage.errand? := by
  cases stage <;> exact ⟨fun _ => rfl, fun _ => rfl, rfl⟩

/-- The outputs of the table reach lines and handlers and answer calls that wait. -/
private theorem view_applyOutput (s : Session α) (output : Output) :
    (s.applyOutput output).1.view = { s.view with lines := (s.applyOutput output).1.lines } := by
  cases output with
  | opened => rfl
  | command k | dropped k =>
    simp only [applyOutput, onTableLine]
    cases s.lineOf? k <;> rfl
  | handled | released =>
    rw [applyOutput, view, errand?_setCall (by exact fun _ _ => rfl)]
    rfl
  | answered =>
    rw [applyOutput, view, errand?_setCall fun c _ => (Stage.errand?_answers c.stage).1 _]
    rfl
  | listed =>
    rw [applyOutput, view, errand?_setCall fun c _ => (Stage.errand?_answers c.stage).2.1 _]
    rfl
  | stopped =>
    rw [applyOutput, view, errand?_setCall fun c _ => (Stage.errand?_answers c.stage).2.2]
    rfl

private theorem view_applyOutputs (s : Session α) (outputs : List Output) :
    (s.applyOutputs outputs).1.view = { s.view with lines := (s.applyOutputs outputs).1.lines } := by
  induction outputs generalizing s with
  | nil => rfl
  | cons output outputs ih =>
    have h := ih (s.applyOutput output).1
    rw [view_applyOutput] at h
    exact h

/-- The notes of outputs are read off the lines alone. -/
private theorem outputNotes_congr {t : Session α} (h : s.lines = t.lines) (outputs : List Output) :
    s.outputNotes outputs = t.outputNotes outputs := by
  induction outputs generalizing s t with
  | nil => rfl
  | cons output outputs ih =>
    have hline (k : Nat) : s.lineOf? k = t.lineOf? k := by rw [lineOf?, lineOf?, h]
    have hnote : s.outputNote output = t.outputNote output := by
      cases output <;> simp [outputNote, h, hline]
    have hnext : (s.applyOutput output).1.lines = (t.applyOutput output).1.lines := by
      cases output with
      | command k | dropped k =>
        simp only [applyOutput, onTableLine, hline]
        cases t.lineOf? k <;> simp [setLine, h]
      | opened => simp [applyOutput, openLine, h]
      | handled | answered | listed | stopped | released => exact h
    rw [outputNotes, outputNotes, hnote, ih hnext]

private theorem Table.Change.of_opened {t t' : Table} {input : Input} {outputs : List Output} {k : Nat} {c : String}
    (hc : Change t input t' outputs) (ho : .opened k c ∈ outputs) :
    t.entryOf? c = none ∧ k = t.nextConnection ∧ outputs = [.opened k c] ∧
      ∃ call, input = .subscribe call c := by
  cases hc with
  | @opens n d _ hno =>
    obtain ⟨rfl, rfl⟩ : k = t.nextConnection ∧ c = d := by simpa using ho
    exact ⟨hno, rfl, rfl, n, rfl⟩
  | absent | stray | list => simp at ho
  | turn _ _ ht => cases ht <;> simp [Entry.answerAll, Entry.release] at ho
  | stop => cases input <;> simp [Table.close, Entry.finish, Entry.answerAll, Table.farewell] at ho
  | refuse => cases input <;> simp [Table.refusal] at ho

theorem handle_eq {rest : Session α} (h : rest.table = s.table) (input : Input) :
    rest.handle input =
      { rest with table := (s.table.step input).1 }.applyOutputs (s.table.step input).2 := by
  rw [← h]
  rfl

/-- The table handles an input that has been taken from what waits. -/
private theorem handle_occurs {rest : Session α} {input : Input} (hwf : s.table.WellFormed)
    (hrest : rest.view = { s.view with events := rest.events })
    (hev : s.events = input.event?.toList ++ rest.events) :
    Occurs s.view (s.outputNotes (s.table.step input).2) (rest.handle input).1.view := by
  have hc := Table.step_change hwf input
  have hlines : rest.lines = s.lines := congrArg View.lines hrest
  rw [handle_eq (show rest.table = s.table from congrArg View.table hrest), view_applyOutputs]
  generalize s.table.step input = r at hc ⊢
  obtain ⟨table', outputs⟩ := r
  have hview : view { rest with table := table' } =
      { s.view with table := table', events := rest.events } := by
    have h := congrArg (fun v : View α => { v with table := table' }) hrest
    exact h
  rw [hview, outputNotes_congr (t := { rest with table := table' }) hlines.symm]
  by_cases ho : ∃ k c, .opened k c ∈ outputs
  · obtain ⟨k, c, ho⟩ := ho
    obtain ⟨hno, rfl, rfl, call, rfl⟩ := hc.of_opened ho
    have hevents : rest.events = s.events := hev.symm
    simp only [outputNotes, outputNote, applyOutputs, applyOutput, openLine, hlines, hevents, List.append_nil]
    exact .subscribes (v := s.view) hno hc
  · have hcarried := carried_outputs { rest with table := table' } fun k c hm => ho ⟨k, c, hm⟩
    exact .handles hc hev (fun k c hm => ho ⟨k, c, hm⟩) (hlines ▸ hcarried)

theorem perform_occurs {m : Move} {effects : List (Effect α)} (hwf : s.table.WellFormed)
    (hcmd : ∀ i ∈ s.commands, i.event? = none) (h : s.perform m = some (s', effects)) :
    Occurs s.view (s.notes m s') s'.view := by
  cases m with
  | resume id =>
    simp only [perform] at h
    split at h
    · next script hs =>
      have hr := resume_occurs hs
      rwa [Option.some.inj h] at hr
    · contradiction
  | take id =>
    simp only [perform] at h
    split at h
    · next hs =>
      obtain ⟨_, ht, heq⟩ := Option.map_eq_some_iff.mp h
      obtain ⟨rfl, -⟩ := Prod.mk.inj heq
      exact take_occurs hs ht
    · contradiction
  | expire id =>
    simp only [perform] at h
    split at h
    · next hs =>
      obtain ⟨_, ht, heq⟩ := Option.map_eq_some_iff.mp h
      obtain ⟨rfl, -⟩ := Prod.mk.inj heq
      exact expire_occurs hs ht
    · contradiction
  | look id =>
    simp only [perform] at h
    split at h
    · next c hc =>
      split at h
      · next hs => exact look_occurs hc hs h
      · contradiction
    · contradiction
  | forward n =>
    obtain ⟨_, ht, heq⟩ := Option.map_eq_some_iff.mp h
    obtain ⟨rfl, -⟩ := Prod.mk.inj heq
    exact forward_occurs ht
  | command =>
    simp only [perform] at h
    split at h
    · next input rest hc =>
      have hnone : input.event? = none := hcmd input (hc ▸ List.mem_cons_self)
      have ho : Occurs s.view _ (handle { s with commands := rest } input).1.view :=
        handle_occurs hwf rfl (by rw [hnone]; rfl)
      rw [Option.some.inj h] at ho
      simpa only [notes, inputOf?, hc, List.head?_cons] using ho
    · contradiction
  | event =>
    simp only [perform] at h
    split at h
    · next k e rest _ he =>
      have ho : Occurs s.view _ (handle { s with events := rest } (.event k e)).1.view :=
        handle_occurs hwf rfl he
      rw [Option.some.inj h] at ho
      simpa only [notes, inputOf?, he, List.head?_cons, Option.map_some] using ho
    · contradiction
  | abandon =>
    simp only [perform] at h
    split at h
    · have ho : Occurs s.view _ (s.handle .abandoned).1.view := handle_occurs hwf rfl rfl
      rwa [Option.some.inj h] at ho
    · contradiction

theorem Logged.reached {timeout : Duration} {log : Log α} (h : Logged timeout s log) :
    ∃ history, Reached timeout s history := by
  induction h with
  | start => exact ⟨_, .start⟩
  | act a _ ih =>
    obtain ⟨history, ih⟩ := ih
    exact ⟨_, ih.act a⟩
  | move _ hm ih =>
    obtain ⟨history, ih⟩ := ih
    exact ⟨_, ih.move hm⟩

theorem Logged.occurs {timeout : Duration} {log : Log α} (h : Logged timeout s log) {m : Move}
    {effects : List (Effect α)} (hm : s.perform m = some (s', effects)) :
    Occurs s.view (s.notes m s') s'.view := by
  obtain ⟨history, hr⟩ := h.reached
  have hc := hr.consistent
  exact perform_occurs (hc.table ▸ Table.wellFormed_after _) hc.commands hm

theorem Logged.trace {timeout : Duration} {log : Log α} (h : Logged timeout s log) :
    Trace timeout s.view log := by
  induction h with
  | start => exact .start
  | @act s _ a _ ih => exact ih.act (act_befalls s a)
  | move hl hm ih => exact ih.move (hl.occurs hm)

end RobotBridge.Session
