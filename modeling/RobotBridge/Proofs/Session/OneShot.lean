import RobotBridge.Proofs.Session.Lines

/-! One-shot calls: what becomes of each follows from its arguments, the events that its own
connection yields and its time, whatever else goes on in the session. -/
namespace RobotBridge.Session

variable {α : Type} {timeout : Duration} {v v' : View α} {log log' : Log α} {notes : List (Note α)}
  {start n id : Nat} {x : Exchange} {next : Exchange.Outcome → Script α}

def View.runs (v : View α) (id n : Nat) (errand : Errand α) : Prop :=
  v.errands id = some errand ∧ errand.line = n

/-- Where the call that started an exchange on a line stands. -/
inductive OneShot (timeout : Duration) (v : View α) (log : Log α) (start n id : Nat) (x : Exchange)
    (next : Exchange.Outcome → Script α) : Prop
  | running : v.runs id n ⟨n, x.after (yielded n log), start + timeout.nanoseconds, next⟩ →
      Exchange.outcomes (x.asked (yielded n log)) = [] →
      queued n log = Exchange.commands (x.asked (yielded n log)) → returned n log = [] →
      expiries n log = [] → OneShot timeout v log start n id x next
  | decided {es : List Event} {e : Event} {outcome : Exchange.Outcome} : (∀ errand, ¬v.runs id n errand) →
      yielded n log = es ++ [e] → Exchange.outcomes (x.asked es) = [] →
      Exchange.outcomes ((x.after es).onEvent e).2 = [outcome] →
      queued n log = Exchange.commands (x.asked (es ++ [e])) → returned n log = [next outcome] →
      expiries n log = [] → OneShot timeout v log start n id x next
  | late : (∀ errand, ¬v.runs id n errand) → Exchange.outcomes (x.asked (yielded n log)) = [] →
      queued n log = Exchange.commands (x.asked (yielded n log)) ++ [.close CloseCode.normal] →
      returned n log = [next (.failed (.timeout x.channel timeout))] → expiries n log = [()] →
      OneShot timeout v log start n id x next

/-- Something that happens from outside a session, or on another line. -/
def Note.leaves (n : Nat) (note : Note α) : Prop :=
  note.line = n → note = .passed n .vanish ∨ ∃ e, note = .passed n (.emit e)

theorem filterMap_eq_nil_of_leaves {β : Type} {f : Note α → Option β} (h : ∀ note ∈ notes, note.leaves n)
    (hline : ∀ note b, f note = some b → note.line = n) (hvanish : f (.passed n .vanish) = none)
    (hemit : ∀ e, f (.passed n (.emit e)) = none) : notes.filterMap f = [] := by
  refine List.filterMap_eq_nil_iff.mpr fun note hm => ?_
  cases hb : f note with
  | none => rfl
  | some b =>
    rcases h note hm (hline note b hb) with rfl | ⟨e, rfl⟩
    · exact absurd hb (by simp [hvanish])
    · exact absurd hb (by simp [hemit])

theorem OneShot.frame (h : OneShot timeout v log start n id x next) {t : Nat}
    (hnotes : ∀ note ∈ notes, note.leaves n) (hruns : ∀ errand, v'.runs id n errand ↔ v.runs id n errand) :
    OneShot timeout v' (log ++ stamp t notes) start n id x next := by
  have huse : ∀ use ∈ notes.filterMap (Note.use? n), use = .vanish ∨ ∃ e, use = .emit e := by
    intro use hm
    obtain ⟨note, hn, hu⟩ := List.mem_filterMap.mp hm
    rcases hnotes note hn (line_of_use? note use hu) with rfl | ⟨e, rfl⟩
    · exact .inl (by simpa using hu.symm)
    · exact .inr ⟨e, by simpa using hu.symm⟩
  have hy : yielded n (log ++ stamp t notes) = yielded n log := by
    rw [yielded_append, Line.yielded, List.filterMap_eq_nil_iff.mpr fun use hm => ?_, List.append_nil]
    rcases huse use hm with rfl | ⟨e, rfl⟩ <;> rfl
  have hq : queued n (log ++ stamp t notes) = queued n log := by
    rw [queued_append, Line.queued, List.filterMap_eq_nil_iff.mpr fun use hm => ?_, List.append_nil]
    rcases huse use hm with rfl | ⟨e, rfl⟩ <;> rfl
  have hr : returned n (log ++ stamp t notes) = returned n log := by
    rw [returned_append, filterMap_eq_nil_of_leaves hnotes line_of_script? rfl fun _ => rfl, List.append_nil]
  have hx : expiries n (log ++ stamp t notes) = expiries n log := by
    rw [expiries_append, filterMap_eq_nil_of_leaves hnotes line_of_expiry? rfl fun _ => rfl, List.append_nil]
  cases h with
  | running he ho hc hret hexp =>
    rw [← hy, ← hruns] at he
    rw [← hy] at ho hc
    exact .running he ho (hq.trans hc) (hr.trans hret) (hx.trans hexp)
  | decided he hes ho hout hc hret hexp =>
    exact .decided (fun e h => he e ((hruns e).mp h)) (hy.trans hes) ho hout (hq.trans hc) (hr.trans hret)
      (hx.trans hexp)
  | late he ho hc hret hexp =>
    rw [← hy] at ho hc
    exact .late (fun e h => he e ((hruns e).mp h)) ho (hq.trans hc) (hr.trans hret) (hx.trans hexp)

@[simp] theorem Errand.scripts_notes (errand : Errand α) (actions : List Exchange.Action) :
    (errand.notes actions).filterMap (Note.script? errand.line) =
      ((Exchange.outcomes actions).getLast?.map errand.next).toList := by
  rw [notes, List.filterMap_append, List.filterMap_map]
  cases (Exchange.outcomes actions).getLast? <;> simp [Function.comp_def]

@[simp] theorem Errand.expiries_notes (errand : Errand α) (actions : List Exchange.Action) :
    (errand.notes actions).filterMap (Note.expiry? errand.line) = [] := by
  rw [notes, List.filterMap_append, List.filterMap_map]
  cases (Exchange.outcomes actions).getLast? <;> simp [Function.comp_def]

theorem View.carryOn_runs {errand : Errand α} {o : Owner} {q : Line} {r : Exchange × List Exchange.Action}
    (h : (Exchange.outcomes r.2) = []) :
    (v.carryOn id o errand q r).runs id errand.line { errand with exchange := r.1 } := by
  simp [View.carryOn, h, View.runs]

theorem View.carryOn_not_runs {errand : Errand α} {o : Owner} {q : Line}
    {r : Exchange × List Exchange.Action} {outcome : Exchange.Outcome}
    (h : (Exchange.outcomes r.2).getLast? = some outcome) (errand' : Errand α) :
    ¬(v.carryOn id o errand q r).runs id n errand' := by
  simp [View.carryOn, h, View.runs]

/-- A call that has not ended is on the errand that it started with. -/
theorem OneShot.eq_of_runs (h : OneShot timeout v log start n id x next) {errand : Errand α}
    (he : v.runs id n errand) :
    errand = ⟨n, x.after (yielded n log), start + timeout.nanoseconds, next⟩ ∧
      Exchange.outcomes (x.asked (yielded n log)) = [] ∧
      queued n log = Exchange.commands (x.asked (yielded n log)) ∧ returned n log = [] ∧
      expiries n log = [] := by
  cases h with
  | running hr ho hc hret hexp => exact ⟨Option.some.inj (he.1.symm.trans hr.1), ho, hc, hret, hexp⟩
  | decided hno => exact absurd he (hno errand)
  | late hno => exact absurd he (hno errand)

/-- An event reaches the exchange of a call. -/
private theorem OneShot.feeds (h : OneShot timeout v log start n id x next) (hx : x.phase = .opening)
    {errand : Errand α} (he : v.runs id n errand) {o : Owner} {q : Line} (e : Event) :
    OneShot timeout (v.carryOn id o errand q (errand.exchange.onEvent e))
      (log ++ stamp v.clock (.passed n (.yield e) :: errand.notes (errand.exchange.onEvent e).2))
      start n id x next := by
  obtain ⟨hmade, ho, hc, hret, hexp⟩ := h.eq_of_runs he
  obtain ⟨-, rfl⟩ := he
  have hexchange : errand.exchange = x.after (yielded errand.line log) := congrArg Errand.exchange hmade
  have hnext : errand.next = next := congrArg Errand.next hmade
  have hdue : errand.deadline = start + timeout.nanoseconds := congrArg Errand.deadline hmade
  have u := Exchange.undecided hx ho
  generalize hr : errand.exchange.onEvent e = r
  have hasked : x.asked (yielded errand.line log ++ [e]) = x.asked (yielded errand.line log) ++ r.2 := by
    rw [Exchange.asked_snoc, ← hexchange, hr]
  generalize hnotes : (.passed errand.line (.yield e) :: errand.notes r.2 : List (Note α)) = notes
  have huse : notes.filterMap (Note.use? errand.line) =
      .yield e :: (Exchange.commands r.2).map Line.Use.queue := by
    rw [← hnotes, Table.filterMap_cons_eq, Errand.uses_notes]
    simp
  have hy : yielded errand.line (log ++ stamp v.clock notes) = yielded errand.line log ++ [e] := by
    rw [yielded_append, huse]
    simp
  have hq : queued errand.line (log ++ stamp v.clock notes) = Exchange.commands (x.asked
      (yielded errand.line log ++ [e])) := by
    rw [queued_append, huse, hasked, Exchange.commands_append, hc]
    simp
  have hs : returned errand.line (log ++ stamp v.clock notes) =
      ((Exchange.outcomes r.2).getLast?.map next).toList := by
    rw [returned_append, hret, ← hnotes, ← hnext, Table.filterMap_cons_eq, Errand.scripts_notes]
    rfl
  have hnone : expiries errand.line (log ++ stamp v.clock notes) = [] := by
    rw [expiries_append, hexp, ← hnotes, Table.filterMap_cons_eq, Errand.expiries_notes]
    rfl
  cases hout : Exchange.outcomes r.2 with
  | nil =>
    refine .running ?_ ?_ ?_ ?_ hnone
    · have hruns : (v.carryOn id o errand q r).runs id errand.line { errand with exchange := r.1 } :=
        View.carryOn_runs hout
      rw [hy, Exchange.after_snoc, ← hexchange, hr]
      rw [hdue, hnext] at hruns
      exact hruns
    · rw [hy, hasked, Exchange.outcomes_append, ho, hout]
      rfl
    · rw [hq, hy]
    · rw [hs, hout]
      rfl
  | cons _ _ =>
    obtain ⟨outcome, hone, -⟩ := u.decides (e := e) (by
      rw [hasked, Exchange.outcomes_append, hout]
      simp)
    have hlast : (Exchange.outcomes r.2).getLast? = some outcome := by
      rw [← hr, hexchange, hone]
      rfl
    refine .decided (fun _ => View.carryOn_not_runs hlast _) hy ho hone hq ?_ hnone
    rw [hs, hlast]
    rfl

/-- A call runs out of time. -/
private theorem OneShot.expires (h : OneShot timeout v log start n id x next) (hx : x.phase = .opening)
    {errand : Errand α} (he : v.runs id n errand) {o : Owner} {p : Line} :
    OneShot timeout (v.carryOn id o errand p (errand.exchange.onTimeout timeout))
      (log ++ stamp v.clock (.expired n :: errand.notes (errand.exchange.onTimeout timeout).2))
      start n id x next := by
  obtain ⟨hmade, ho, hc, hret, hexp⟩ := h.eq_of_runs he
  obtain ⟨-, rfl⟩ := he
  have hexchange : errand.exchange = x.after (yielded errand.line log) := congrArg Errand.exchange hmade
  have hnext : errand.next = next := congrArg Errand.next hmade
  have hasked := (Exchange.undecided hx ho).onTimeout timeout
  rw [← hexchange] at hasked
  have huse : (.expired errand.line :: errand.notes (errand.exchange.onTimeout timeout).2 :
      List (Note α)).filterMap (Note.use? errand.line) = [.queue (.close CloseCode.normal)] := by
    rw [Table.filterMap_cons_eq, Errand.uses_notes, hasked]
    rfl
  have hy : yielded errand.line (log ++ stamp v.clock (.expired errand.line ::
      errand.notes (errand.exchange.onTimeout timeout).2)) = yielded errand.line log := by
    rw [yielded_append, huse]
    simp
  have hlast : (Exchange.outcomes (errand.exchange.onTimeout timeout).2).getLast? =
      some (.failed (.timeout x.channel timeout)) := by
    rw [hasked]
    rfl
  refine .late (View.carryOn_not_runs hlast) (by rwa [hy]) ?_ ?_ ?_
  · rw [hy, queued_append, huse, hc]
    simp
  · rw [returned_append, hret, Table.filterMap_cons_eq, Errand.scripts_notes, hasked, hnext]
    simp
  · rw [expiries_append, hexp, Table.filterMap_cons_eq, Errand.expiries_notes]
    simp

/-! ### Other lines -/

theorem Note.leaves_of_ne {note : Note α} (h : note.line ≠ n) : note.leaves n := fun hl => absurd hl h

/-- An errand on another line says nothing of this one. -/
private theorem runs_update {other : Nat} {new : Option (Errand α)} {v' : View α}
    (h : v'.errands = Function.update v.errands other new)
    (hold : ∀ errand, v.errands other = some errand → errand.line ≠ n)
    (hnew : ∀ errand, new = some errand → errand.line ≠ n) (errand : Errand α) :
    v'.runs id n errand ↔ v.runs id n errand := by
  rw [View.runs, View.runs, h, Function.update_apply]
  split
  · next hid =>
    subst hid
    exact ⟨fun ⟨he, hl⟩ => absurd hl (hnew errand he), fun ⟨he, hl⟩ => absurd hl (hold errand he)⟩
  · rfl

private theorem OneShot.carryOn_other (h : OneShot timeout v log start n id x next) {other t : Nat}
    {errand : Errand α} (he : v.errands other = some errand) (hne : errand.line ≠ n) {o : Owner} {q : Line}
    {first : Note α} (hfirst : first.line = errand.line) (r : Exchange × List Exchange.Action) :
    OneShot timeout (v.carryOn other o errand q r) (log ++ stamp t (first :: errand.notes r.2)) start n id x
      next := by
  have hold (e : Errand α) (hs : v.errands other = some e) : e.line ≠ n :=
    Option.some.inj (he.symm.trans hs) ▸ hne
  refine h.frame (fun note hm => Note.leaves_of_ne ?_) ?_
  · rcases List.mem_cons.mp hm with rfl | hm
    · rwa [hfirst]
    · rwa [(Errand.of_mem_notes hm).1]
  · unfold View.carryOn
    cases (Exchange.outcomes r.2).getLast? with
    | some outcome => exact runs_update rfl hold (by simp)
    | none => exact runs_update rfl hold fun e hs => by obtain rfl := Option.some.inj hs; exact hne

/-! ### What every trace keeps -/

theorem Wired.eq_of_runs (w : Wired timeout v log) (ho : ownerOf? v.lines n = some (.call id)) {other : Nat}
    {errand : Errand α} (he : v.errands other = some errand) (hl : errand.line = n) : other = id := by
  obtain ⟨p, hp, -⟩ := w.errands other errand he
  rw [hl] at hp
  rw [ownerOf?_eq_some.mpr ⟨p, hp⟩] at ho
  exact Owner.call.inj (Option.some.inj ho)

/-- An exchange that has no outcome has not taken the end of its connection. -/
theorem not_terminated (w : Wired timeout v log) (hx : x.phase = .opening) {o : Owner} {p : Line}
    (hp : v.lines[n]? = some (o, p)) (ho : Exchange.outcomes (x.asked (yielded n log)) = []) :
    p.terminated = false := by
  rw [(w.passes n o p hp).told.terminated]
  exact List.any_eq_false.mpr fun e hm => by simp [(Exchange.undecided hx ho).live e hm]

private theorem OneShot.occurs (h : OneShot timeout v log start n id x next) (hx : x.phase = .opening)
    (w : Wired timeout v log) (ho : ownerOf? v.lines n = some (.call id)) (hstep : Occurs v notes v') :
    OneShot timeout v' (log ++ stamp v.clock notes) start n id x next := by
  obtain ⟨p₀, hp₀⟩ := ownerOf?_eq_some.mp ho
  have hlt : n < v.lines.length := (List.getElem?_eq_some_iff.mp hp₀).1
  cases hstep with
  | idle =>
    rw [stamp, List.map_nil, List.append_nil]
    exact h
  | @begins other script x' next' he hs =>
    refine h.frame (fun note hm => Note.leaves_of_ne ?_) (runs_update rfl (by simp [he]) fun e hs => ?_)
    · have hl : note.line = v.lines.length := by
        rcases List.mem_cons.mp hm with rfl | hm
        · rfl
        · rw [List.mem_singleton.mp hm]
          rfl
      exact hl ▸ (Nat.ne_of_lt hlt).symm
    · obtain rfl := Option.some.inj hs
      exact (Nat.ne_of_lt hlt).symm
  | @feeds other errand o p q e he hp hn =>
    by_cases hl : errand.line = n
    · obtain rfl := w.eq_of_runs ho he hl
      subst hl
      exact h.feeds hx ⟨he, rfl⟩ e
    · exact h.carryOn_other he hl rfl _
  | @expires other errand o p he hp hd he' =>
    by_cases hl : errand.line = n
    · obtain rfl := w.eq_of_runs ho he hl
      subst hl
      rw [w.timeout]
      exact h.expires hx ⟨he, rfl⟩
    · exact h.carryOn_other he hl rfl _
  | @falls other errand o p he hp ht =>
    have hne : errand.line ≠ n := by
      -- The exchange has no outcome yet, so its connection has not yielded its end.
      rintro rfl
      obtain rfl := w.eq_of_runs ho he rfl
      obtain ⟨-, hout, -⟩ := h.eq_of_runs ⟨he, rfl⟩
      rw [not_terminated w hx hp hout] at ht
      contradiction
    refine h.frame (fun note hm => Note.leaves_of_ne ?_) (runs_update rfl ?_ (by simp))
    · rw [List.mem_singleton.mp hm]
      exact hne
    · exact fun e hs => Option.some.inj (he.symm.trans hs) ▸ hne
  | @forwards m k p q e hr hp hn | @deafens m k p q e hr hp hn =>
    have hne : m ≠ n := by
      rintro rfl
      rw [ownerOf?_eq_some.mpr ⟨p, hp⟩] at ho
      cases ho
    refine h.frame (fun note hm => Note.leaves_of_ne ?_) fun _ => Iff.rfl
    rw [List.mem_singleton.mp hm]
    exact hne
  | subscribes =>
    refine h.frame (fun note hm => Note.leaves_of_ne ?_) fun _ => Iff.rfl
    rw [List.mem_singleton.mp hm]
    exact (Nat.ne_of_lt hlt).symm
  | handles _ _ _ hcarried =>
    refine h.frame (fun note hm => Note.leaves_of_ne ?_) fun _ => Iff.rfl
    obtain ⟨m, k, c, rfl, hk, -⟩ := hcarried.onlyQueue note hm
    rintro rfl
    cases hk.symm.trans ho

private theorem OneShot.befalls (h : OneShot timeout v log start n id x next) (hstep : Befalls v notes v') :
    OneShot timeout v' (log ++ stamp v.clock notes) start n id x next := by
  refine h.frame (fun note hm hl => ?_) fun errand => ?_
  · obtain ⟨m, rfl | ⟨e, rfl⟩⟩ := hstep.of_mem hm
    · obtain rfl : m = n := hl
      exact .inl rfl
    · obtain rfl : m = n := hl
      exact .inr ⟨e, rfl⟩
  · cases hstep <;> rfl

theorem oneShot?_phase {script : Script α} (h : script.oneShot? = some (x, next)) : x.phase = .opening := by
  cases script <;> simp [Script.oneShot?] at h <;> obtain ⟨rfl, -⟩ := h <;> rfl

/-- A call that started on a line is the only one that did, and the line is its own. -/
theorem Wired.of_began (w : Wired timeout v log) {script : Script α}
    (h : (start, .began n id script) ∈ log) :
    ownerOf? v.lines n = some (.call id) ∧ starts n log = [(id, script)] := by
  have hm : (id, script) ∈ starts n log := List.mem_filterMap.mpr ⟨_, h, by simp⟩
  have hlt : n < v.lines.length := w.within _ h
  have ho : ownerOf? v.lines n = some v.lines[n].1 := ownerOf?_eq_some.mpr ⟨_, List.getElem?_eq_getElem hlt⟩
  obtain ⟨-, hstarts⟩ := w.opened n _ ho
  cases howner : v.lines[n].1 with
  | call j =>
    rw [howner] at hstarts
    obtain ⟨entry, hone, rfl⟩ := List.map_eq_singleton_iff.mp (show (starts n log).map Prod.fst = [j] from hstarts)
    obtain rfl := List.mem_singleton.mp (hone ▸ hm)
    exact ⟨howner ▸ ho, hone⟩
  | table k =>
    rw [howner] at hstarts
    rw [List.map_eq_nil_iff.mp (show (starts n log).map Prod.fst = [] from hstarts)] at hm
    exact absurd hm List.not_mem_nil

/-- A call that owns a line started on it. -/
theorem Wired.exists_began (w : Wired timeout v log) (h : ownerOf? v.lines n = some (.call id)) :
    ∃ start script, (start, .began n id script) ∈ log := by
  obtain ⟨-, hstarts⟩ := w.opened n _ h
  obtain ⟨⟨_, script⟩, hone, rfl⟩ := List.map_eq_singleton_iff.mp hstarts
  obtain ⟨⟨start, note⟩, hm, hnote⟩ := List.mem_filterMap.mp
    (show (_, script) ∈ starts n log from hone ▸ List.mem_cons_self)
  cases note with
  | began m other script' =>
    obtain ⟨rfl, rfl, rfl⟩ : m = n ∧ other = _ ∧ script' = script := by simpa using hnote
    exact ⟨start, script', hm⟩
  | connected | passed | expired | returned => simp at hnote

/-- A call starts on a new line, with the exchange of its script. -/
private theorem Occurs.begun (h : Occurs v notes v') {script : Script α} (hm : .began n id script ∈ notes) :
    ∃ x next, script.oneShot? = some (x, next) ∧ n = v.lines.length ∧
      v'.runs id n ⟨n, x, v.clock + v.timeout.nanoseconds, next⟩ ∧
      notes = [.connected n (.call id) x.channel, .began n id script] := by
  cases h with
  | idle | falls | forwards | deafens | subscribes => simp at hm
  | begins he hs =>
    obtain ⟨rfl, rfl, rfl⟩ : n = v.lines.length ∧ id = _ ∧ script = _ := by simpa using hm
    exact ⟨_, _, hs, rfl, ⟨by simp, rfl⟩, rfl⟩
  | feeds | expires =>
    rcases List.mem_cons.mp hm with hm | hm
    · contradiction
    · cases (Errand.of_mem_notes hm).2
  | handles _ _ _ hcarried =>
    obtain ⟨_, _, _, heq, -⟩ := hcarried.onlyQueue _ hm
    contradiction

theorem Occurs.of_began (h : Occurs v notes v') {script : Script α}
    (hm : .began n id script ∈ notes) (hs : script.oneShot? = some (x, next)) :
    n = v.lines.length ∧ v'.runs id n ⟨n, x, v.clock + v.timeout.nanoseconds, next⟩ ∧
      notes = [.connected n (.call id) x.channel, .began n id script] := by
  obtain ⟨_, _, hs', hbegun⟩ := h.begun hm
  obtain ⟨rfl, rfl⟩ := Prod.mk.inj (Option.some.inj (hs.symm.trans hs'))
  exact hbegun

theorem Trace.oneShot?_of_began (h : Trace timeout v log) {script : Script α}
    (hb : (start, .began n id script) ∈ log) : ∃ x next, script.oneShot? = some (x, next) := by
  induction h with
  | start => exact absurd hb List.not_mem_nil
  | act _ hstep ih =>
    rcases List.mem_append.mp hb with hb | hb
    · exact ih hb
    · obtain ⟨_, h | ⟨_, h⟩⟩ := hstep.of_mem (mem_stamp.mp hb).2 <;> cases h
  | move _ hstep ih =>
    rcases List.mem_append.mp hb with hb | hb
    · exact ih hb
    · obtain ⟨x, next, hs, -⟩ := hstep.begun (mem_stamp.mp hb).2
      exact ⟨x, next, hs⟩

/-- A one-shot call stands where its arguments, its events and its time have brought it. -/
theorem Trace.oneShot (h : Trace timeout v log) {script : Script α} (hb : (start, .began n id script) ∈ log)
    (hs : script.oneShot? = some (x, next)) : OneShot timeout v log start n id x next := by
  induction h with
  | start => exact absurd hb List.not_mem_nil
  | act ht hstep ih =>
    rcases List.mem_append.mp hb with hb | hb
    · exact (ih hb).befalls hstep
    · obtain ⟨_, h | ⟨_, h⟩⟩ := hstep.of_mem (mem_stamp.mp hb).2 <;> cases h
  | @move v v' log notes ht hstep ih =>
    rcases List.mem_append.mp hb with hb | hb
    · exact (ih hb).occurs (oneShot?_phase hs) ht.wired (ht.wired.of_began hb).1 hstep
    · obtain ⟨rfl, hm⟩ := mem_stamp.mp hb
      obtain ⟨rfl, hruns, rfl⟩ := hstep.of_began hm hs
      have hnil {β : Type} {f : Note α → Option β} (hf : ∀ note b, f note = some b → note.line = v.lines.length) :
          pick f log = [] := pick_eq_nil hf ht.wired.within
      have hy : yielded v.lines.length (log ++ stamp v.clock
          [.connected v.lines.length (.call id) x.channel, .began v.lines.length id script]) = [] := by
        rw [yielded_append, yielded, traffic, hnil line_of_use?]
        rfl
      refine .running ?_ ?_ ?_ ?_ ?_
      · rw [hy, ← ht.wired.timeout]
        exact hruns
      · rw [hy]
        rfl
      · rw [hy, queued_append, queued, traffic, hnil line_of_use?]
        rfl
      · rw [returned_append, returned, hnil line_of_script?]
        rfl
      · rw [expiries_append, expiries, hnil line_of_expiry?]
        rfl

/-- Whoever is on an errand is so with an exchange that has no outcome yet. -/
theorem Trace.undecided_of_errand (h : Trace timeout v log) {errand : Errand α}
    (he : v.errands id = some errand) :
    ∃ x : Exchange, x.phase = .opening ∧ errand.exchange = x.after (yielded errand.line log) ∧
      Exchange.outcomes (x.asked (yielded errand.line log)) = [] := by
  obtain ⟨p, hp, -⟩ := h.wired.errands id errand he
  obtain ⟨start, script, hb⟩ := h.wired.exists_began (ownerOf?_eq_some.mpr ⟨p, hp⟩)
  obtain ⟨x, next, hs⟩ := h.oneShot?_of_began hb
  obtain ⟨hmade, hout, -⟩ := (h.oneShot hb hs).eq_of_runs ⟨he, rfl⟩
  exact ⟨x, oneShot?_phase hs, congrArg Errand.exchange hmade, hout⟩

end RobotBridge.Session
