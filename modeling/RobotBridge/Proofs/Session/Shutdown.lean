import RobotBridge.Proofs.Session.EndToEnd
import RobotBridge.Proofs.Session.Waiting
import RobotBridge.Proofs.Session.Custody
import RobotBridge.Proofs.Session.Termination

/-! Shutting a session down, by a call or because no caller is left: what it does to connections,
handlers and calls that wait, and what the session does from then on. -/
namespace RobotBridge.Session
open Exchange (requestReply publishReply)
open Table (Input Output Change)

variable {α : Type}

/-! ### A table that has stopped -/

namespace Table

theorem refusal_refuses (input : Input) : ∀ output ∈ refusal input, output.Refuses := by
  cases input <;> simp [refusal, Output.Refuses]

theorem step_of_stopped {t : Table} (hr : t.running = false) (input : Input) :
    t.step input = (t, refusal input) := by
  unfold step
  rw [hr]
  cases input <;> rfl

/-- Nothing that a stopped table says reaches a connection. -/
theorem command_notMem_refusal (input : Input) (k : Nat) (c : Command) : .command k c ∉ refusal input := by
  cases input <;> simp [refusal]

theorem Change.of_stopped {t t' : Table} {input : Input} {out : List Output} (hc : Change t input t' out)
    (hr : t.running = false) : t' = t ∧ out = refusal input := by
  cases hc with
  | refuse => exact ⟨rfl, rfl⟩
  | opens h | absent h | turn h | stray h | list h | stop h => exact absurd h (ne_true_of_eq_false hr)

/-- A stop closes all there is and says farewell, also when the table has stopped before. -/
theorem WellFormed.step_stop {t : Table} (h : t.WellFormed) {input : Input} (hi : input.isStop) :
    t.step input = ({ t with entries := [], running := false }, t.close.2 ++ farewell input) := by
  cases hr : t.running with
  | true =>
    cases input with
    | shutdown =>
      simp only [Table.step, hr]
      rfl
    | abandoned =>
      simp only [Table.step, hr, farewell, List.append_nil]
      rfl
    | _ => contradiction
  | false =>
    have hnone : t.entries = [] := h.stopped hr
    have hsame : { t with entries := [], running := false } = t := by rw [← hnone, ← hr]
    rw [step_of_stopped hr, hsame, close, hnone]
    cases input <;> first | rfl | contradiction

end Table

section Stopped

variable {timeout : Duration} {v v' : View α} {log : Log α} {notes : List (Note α)}

/-- A table that has stopped stays as it is, gets no line, and queues nothing on its lines. -/
structure Shut (v : View α) (notes : List (Note α)) (v' : View α) : Prop where
  table : v'.table = v.table
  lines : ∀ n k, ownerOf? v'.lines n = some (.table k) → ownerOf? v.lines n = some (.table k)
  queues : ∀ n k, ownerOf? v.lines n = some (.table k) → ∀ c, .passed n (.queue c) ∉ notes

theorem Befalls.shut (h : Befalls v notes v') : Shut v notes v' := by
  cases h with
  | passes => exact ⟨rfl, fun _ _ h => h, by simp⟩
  | emits e hp => exact ⟨rfl, fun n k hn => ownerOf?_set hp n ▸ hn, by simp⟩
  | vanishes hp => exact ⟨rfl, fun n k hn => ownerOf?_set hp n ▸ hn, by simp⟩

/-- A one-shot call has no part in what belongs to the table. -/
private theorem Wired.carryOn_shut (w : Wired timeout v log) {id : Nat} {o : Owner} {errand : Errand α}
    {p q : Line} (he : v.errands id = some errand) (hp : v.lines[errand.line]? = some (o, p))
    {r : Exchange × List Exchange.Action} {first : Note α} (hfirst : ∀ n c, first ≠ .passed n (.queue c)) :
    Shut v (first :: errand.notes r.2) (v.carryOn id o errand q r) := by
  refine ⟨?_, fun n k hn => ?_, fun n k hn c hm => ?_⟩
  · unfold View.carryOn
    split <;> rfl
  · unfold View.carryOn at hn
    split at hn <;> exact ownerOf?_set hp n ▸ hn
  · rcases List.mem_cons.mp hm with hm | hm
    · exact hfirst n c hm.symm
    · rcases Errand.mem_notes hm with ⟨_, heq⟩ | ⟨_, heq⟩
      · obtain ⟨rfl, -⟩ := Note.passed.inj heq
        obtain ⟨rfl, -⟩ := w.of_errand he hp
        rw [ownerOf?_eq_some.mpr ⟨p, hp⟩] at hn
        cases hn
      · contradiction

theorem Occurs.shut (w : Wired timeout v log) (h : Occurs v notes v') (hr : v.table.running = false) :
    Shut v notes v' := by
  cases h with
  | idle => exact ⟨rfl, fun _ _ h => h, by simp⟩
  | begins =>
    refine ⟨rfl, fun n k hn => ?_, by simp⟩
    exact (ownerOf?_snoc_cases hn).resolve_left fun ⟨_, ho⟩ => Owner.noConfusion ho
  | feeds he hp => exact w.carryOn_shut he hp (by simp)
  | expires he hp => exact w.carryOn_shut he hp (by simp)
  | falls _ hp => exact ⟨rfl, fun n k hn => ownerOf?_set hp n ▸ hn, by simp⟩
  | forwards hrun => exact absurd hrun (ne_true_of_eq_false hr)
  | deafens _ hp => exact ⟨rfl, fun n k hn => ownerOf?_set hp n ▸ hn, by simp⟩
  | subscribes _ hc => cases (hc.of_stopped hr).2
  | handles hc _ _ hcarried =>
    obtain ⟨rfl, rfl⟩ := hc.of_stopped hr
    refine ⟨rfl, fun n k hn => hcarried.ownerOf?_eq n ▸ hn, fun n k _ c hm => ?_⟩
    obtain ⟨_, _, _, -, -, hout⟩ := hcarried.onlyQueue _ hm
    exact Table.command_notMem_refusal _ _ _ hout

end Stopped

/-! ### What a stop says and queues -/

section Stop

variable {timeout : Duration} {s s' : Session α} {log : Log α} {input : Input} {outputs : List Output}
  {output : Output} {n k id : Nat}

theorem lineOf?_congr {t : Session α} (h : s.lines.map Prod.fst = t.lines.map Prod.fst) (k : Nat) :
    s.lineOf? k = t.lineOf? k := by
  have hline (u : Session α) :
      u.lineOf? k = (u.lines.map Prod.fst).findIdx? fun o => o = Owner.table k := by
    rw [List.findIdx?_map]
    rfl
  rw [hline, hline, h]

/-- Outputs that open no line are noted one by one. -/
theorem outputNotes_eq (s : Session α) (h : ∀ k c, .opened k c ∉ outputs) :
    s.outputNotes outputs = outputs.flatMap s.outputNote := by
  induction outputs generalizing s with
  | nil => rfl
  | cons output outputs ih =>
    have hfirst : ∀ k c, output ≠ .opened k c := fun k c ho => h k c (ho ▸ List.mem_cons_self)
    have hrest : ∀ k c, .opened k c ∉ outputs := fun k c hm => h k c (List.mem_cons_of_mem _ hm)
    have howners := (carried_output s output hfirst).owners
    rw [outputNotes, ih _ hrest, List.flatMap_cons]
    refine congrArg (s.outputNote output ++ ·) (List.flatMap_congr fun o ho => ?_)
    cases o with
    | opened k c => exact absurd ho (hrest k c)
    | command k c => simp only [outputNote, lineOf?_congr howners]
    | _ => rfl

theorem Wired.lineOf?_eq (w : Wired timeout s.view log) (h : ownerOf? s.lines n = some (.table k)) :
    s.lineOf? k = some n := by
  cases hl : s.lineOf? k with
  | none => exact absurd h (lineOf?_eq_none hl n)
  | some m => exact congrArg some (w.unique m n k (ownerOf?_eq_some.mpr (lineOf?_eq_some hl)) h)

/-- One close for each entry is noted, on the line of its connection. -/
theorem outputNotes_stop (s : Session α) (input : Input) :
    (s.table.close.2 ++ Table.farewell input).flatMap s.outputNote =
      s.table.entries.flatMap fun q =>
        ((s.lineOf? q.2.connection).map fun n => .passed n (.queue (.close CloseCode.normal))).toList := by
  have hfarewell : (Table.farewell input).flatMap s.outputNote = [] := by cases input <;> rfl
  have hfinish (entry : Entry) : (entry.finish .sessionClosed).flatMap s.outputNote = [] := by
    simp [Entry.finish, Entry.answerAll, outputNote, List.flatMap_eq_nil_iff]
  rw [List.flatMap_append, hfarewell, List.append_nil, Table.close, List.flatMap_assoc]
  refine List.flatMap_congr fun q _ => ?_
  rw [List.flatMap_cons, hfinish, List.append_nil]
  rfl

private theorem flatMap_ite_eq {β : Type} {l : List Nat} (hl : l.Nodup) (hk : k ∈ l) (b : β) :
    (l.flatMap fun j => if j = k then [b] else []) = [b] := by
  induction l with
  | nil => contradiction
  | cons j l ih =>
    obtain ⟨hj, hl⟩ := List.nodup_cons.mp hl
    rw [List.flatMap_cons]
    rcases List.mem_cons.mp hk with rfl | hk
    · have hrest : (l.flatMap fun i => if i = k then [b] else []) = [] :=
        List.flatMap_eq_nil_iff.mpr fun i hi => if_neg fun (heq : i = k) => hj (heq ▸ hi)
      rw [if_pos rfl, hrest, List.append_nil]
    · rw [if_neg fun (heq : j = k) => hj (heq ▸ hk), ih hl hk, List.nil_append]

private theorem queued_outputNotes_stop (s : Session α) (input : Input) (n : Nat) :
    Line.queued (((s.table.close.2 ++ Table.farewell input).flatMap s.outputNote).filterMap
        (Note.use? n)) =
      s.table.entries.flatMap fun q =>
        if s.lineOf? q.2.connection = some n then [.close CloseCode.normal] else [] := by
  rw [outputNotes_stop, List.filterMap_flatMap, Line.queued, List.filterMap_flatMap]
  refine List.flatMap_congr fun q _ => ?_
  cases s.lineOf? q.2.connection with
  | none => rfl
  | some m =>
    by_cases hm : m = n
    · simp [hm]
    · simp [hm]

/-- A stop queues one close on the line of an entry. -/
theorem Wired.queued_stop (w : Wired timeout s.view log) (input : Input) {q : String × Entry}
    (hq : q ∈ s.table.entries) (ho : ownerOf? s.lines n = some (.table q.2.connection)) :
    Line.queued (((s.table.close.2 ++ Table.farewell input).flatMap s.outputNote).filterMap
      (Note.use? n)) = [.close CloseCode.normal] := by
  have hline (r : String × Entry) : s.lineOf? r.2.connection = some n ↔
      r.2.connection = q.2.connection := by
    constructor
    · intro hr
      have heq := (ownerOf?_eq_some.mpr (lineOf?_eq_some hr)).symm.trans ho
      exact Owner.table.inj (Option.some.inj heq)
    · intro hr
      exact hr ▸ w.lineOf?_eq ho
  simp only [queued_outputNotes_stop, hline]
  have hmap := List.flatMap_map (fun p : String × Entry => p.2.connection)
    (fun j => if j = q.2.connection then [Command.close CloseCode.normal] else []) s.table.entries
  rw [← hmap]
  exact flatMap_ite_eq w.wellFormed.distinct (List.mem_map.mpr ⟨q, hq, rfl⟩) _

/-- A stop queues nothing on other lines. -/
theorem queued_stop_of_ne (s : Session α) (input : Input)
    (h : ∀ q ∈ s.table.entries, ownerOf? s.lines n ≠ some (.table q.2.connection)) :
    Line.queued (((s.table.close.2 ++ Table.farewell input).flatMap s.outputNote).filterMap
      (Note.use? n)) = [] := by
  rw [queued_outputNotes_stop]
  refine List.flatMap_eq_nil_iff.mpr fun q hq => if_neg fun hl => ?_
  exact h q hq (ownerOf?_eq_some.mpr (lineOf?_eq_some hl))

/-- What a stop says opens nothing and calls no handler, and answers only that the session is closed. -/
theorem stop_says {t : Table} (h : output ∈ t.close.2 ++ Table.farewell input) :
    output.Refuses ∧ (∀ k c, output ≠ .opened k c) ∧ ∀ call notice, output ≠ .handled call notice := by
  have hfarewell (hm : output ∈ Table.farewell input) : ∃ call, output = .stopped call := by
    cases input with
    | shutdown call => exact ⟨call, List.mem_singleton.mp hm⟩
    | _ => exact absurd hm List.not_mem_nil
  rcases List.mem_append.mp h with hm | hm
  · obtain ⟨q, -, hm⟩ := List.mem_flatMap.mp hm
    simp only [Entry.finish, Entry.answerAll, List.mem_cons, List.mem_append, List.mem_map,
      List.not_mem_nil, or_false] at hm
    rcases hm with rfl | ⟨call, -, rfl⟩ | rfl | rfl <;> simp [Output.Refuses]
  · obtain ⟨call, rfl⟩ := hfarewell hm
    simp [Output.Refuses]

/-- Outputs that open no line and call no handler cannot be seen. -/
theorem effects_eq_nil (s : Session α)
    (h : ∀ output ∈ outputs, (∀ k c, output ≠ .opened k c) ∧ ∀ call notice, output ≠ .handled call notice) :
    (s.applyOutputs outputs).2 = [] := by
  induction outputs generalizing s with
  | nil => rfl
  | cons output outputs ih =>
    obtain ⟨hopened, hhandled⟩ := h output List.mem_cons_self
    have hrest := ih (s.applyOutput output).1 fun o ho => h o (List.mem_cons_of_mem _ ho)
    have hfirst : (s.applyOutput output).2 = [] := by
      cases output with
      | opened k c => exact absurd rfl (hopened k c)
      | handled call notice => exact absurd rfl (hhandled call notice)
      | _ => rfl
    have happ : (s.applyOutputs (output :: outputs)).2 =
        (s.applyOutput output).2 ++ ((s.applyOutput output).1.applyOutputs outputs).2 := rfl
    rw [happ, hfirst, hrest, List.nil_append]

theorem Table.WellFormed.step_stop_says {t : Table} (h : t.WellFormed) (hi : input.isStop) :
    ∀ output ∈ (t.step input).2, output.Refuses ∧ (∀ k c, output ≠ .opened k c) ∧
      ∀ call notice, output ≠ .handled call notice := by
  rw [h.step_stop hi]
  exact fun output ho => stop_says ho

theorem notes_of_inputOf? {m : Move} (h : s.inputOf? m = some input) (s' : Session α) :
    s.notes m s' = s.outputNotes (s.table.step input).2 := by
  cases m with
  | command | event | abandon => simp only [notes, h]
  | _ => contradiction

/-- Some entry has a call that waits for it. -/
private theorem mem_calls_pending {t : Table} :
    id ∈ Table.calls t.pending ↔ ∃ q ∈ t.entries, id ∈ q.2.subscribers ∨ id ∈ q.2.unsubscribers := by
  simp [Table.calls_pending]

section Calls

variable {t : Table} {next : Except CallError Unit → Script α}

private theorem tell_stop_entry (h : t.WellFormed) (hi : input.isStop)
    (hq : ∃ q ∈ t.entries, id ∈ q.2.subscribers ∨ id ∈ q.2.unsubscribers) :
    (t.step input).2.foldl (Stage.tell id) (.waiting next) = .ready (next (.error .sessionClosed)) := by
  have hanswered : .answered id (.error .sessionClosed) ∈ (t.step input).2 := by
    rw [h.step_stop hi]
    exact List.mem_append_left _ (Table.answered_mem_close.mpr ⟨hq, rfl⟩)
  exact Stage.foldl_tell_answered (fun output ho => (h.step_stop_says hi output ho).1) rfl
    ⟨_, hanswered, .answered⟩

private theorem tell_stop_absent (h : t.WellFormed) (hi : input.isStop)
    (hq : ¬∃ q ∈ t.entries, id ∈ q.2.subscribers ∨ id ∈ q.2.unsubscribers) :
    (t.step input).2.foldl (Stage.tell id) (.waiting next) = .waiting next := by
  refine Stage.foldl_tell_of_not_answered ?_
  rw [h.step_stop hi]
  rintro _ ho ⟨⟩
  rcases List.mem_append.mp ho with ho | ho
  · exact hq (Table.answered_mem_close.mp ho).1
  · exact absurd ho Table.answered_notMem_farewell

private theorem tell_stop_caller (h : t.WellFormed) (next : Unit → Script α) :
    (t.step (.shutdown id)).2.foldl (Stage.tell id) (.stopping next) = .ready (next ()) := by
  have hstopped : .stopped id ∈ (t.step (.shutdown id)).2 := by
    rw [h.step_stop rfl]
    exact List.mem_append_right _ (List.mem_singleton_self _)
  exact Stage.foldl_tell_answered (fun output ho => (h.step_stop_says rfl output ho).1) rfl
    ⟨_, hstopped, .stopped⟩

end Calls

/-! ### Shutting down -/

/-- What a stop does; `s'` and `log'` are the session and its log after it. -/
structure ShutDown (s : Session α) (log : Log α) (input : Input) (s' : Session α) (log' : Log α)
    (effects : List (Effect α)) : Prop where
  table : s'.table.entries = [] ∧ s'.table.running = false
  /-- No handler is called and no connection is opened. -/
  silent : effects = []
  /-- The connection of each entry has one line, and one close is queued there. -/
  closes : ∀ q ∈ s.table.entries, ∃ n,
    (∀ m, s.lines[m]?.map Prod.fst = some (.table q.2.connection) ↔ m = n) ∧
      queued n log' = queued n log ++ [.close CloseCode.normal]
  others : ∀ n, (∀ q ∈ s.table.entries, s.lines[n]?.map Prod.fst ≠ some (.table q.2.connection)) →
    queued n log' = queued n log
  /-- As long as a connection has a transport, what is queued there is on its line to be sent. -/
  commands : ∀ n owner p, s'.lines[n]? = some (owner, p) → p.attached → p.commands = queued n log'
  /-- Each call that waits for an entry is told that the session is closed. -/
  settles : ∀ id next, s.stage? id = some (.waiting next) →
    (∃ q ∈ s.table.entries, id ∈ q.2.subscribers ∨ id ∈ q.2.unsubscribers) →
    s'.stage? id = some (.ready (next (.error .sessionClosed)))
  /-- Any other call that waits has its turn with the table yet to come. -/
  queues : ∀ id next, s.stage? id = some (.waiting next) →
    (¬∃ q ∈ s.table.entries, id ∈ q.2.subscribers ∨ id ∈ q.2.unsubscribers) →
    s'.stage? id = some (.waiting next) ∧ id ∈ Table.calls s'.commands
  returns : ∀ id next, input = .shutdown id → s.stage? id = some (.stopping next) →
    s'.stage? id = some (.ready (next ()))
  /-- A call that does not wait for the table takes no notice. -/
  spares : ∀ id stage, s.stage? id = some stage → stage.isAsking = false → s'.stage? id = some stage

/-- What a stop is to connections is read off its notes. -/
private theorem notes_stop {m : Move} (h : s.table.WellFormed) (hin : s.inputOf? m = some input)
    (hi : input.isStop) (s' : Session α) :
    s.notes m s' = (s.table.close.2 ++ Table.farewell input).flatMap s.outputNote := by
  have hopens : ∀ k c, .opened k c ∉ (s.table.step input).2 := fun k c ho =>
    (h.step_stop_says hi _ ho).2.1 k c rfl
  rw [notes_of_inputOf? hin, outputNotes_eq s hopens, h.step_stop hi]

theorem Logged.shutDown (h : Logged timeout s log) {m : Move} {effects : List (Effect α)}
    (hin : s.inputOf? m = some input) (hi : input.isStop) (hm : s.perform m = some (s', effects)) :
    ShutDown s log input s' (log ++ stamp s.clock (s.notes m s')) effects := by
  have w := h.trace.wired
  have hwf : s.table.WellFormed := w.wellFormed
  have hnotes := notes_stop hwf hin hi s'
  cases perform_advance hm with
  | patient hnone => simp [hnone] at hin
  | @handles commands events input' hin' hcommands =>
    obtain rfl := Option.some.inj (hin'.symm.trans hin)
    have htable : ({ s with commands, events } : Session α).table = s.table := rfl
    have applied := applied_outputs { s with commands, events, table := (s.table.step input').1 }
      (s.table.step input').2
    refine ⟨?_, ?_, fun q hq => ?_, fun n hn => ?_, fun n owner p => (h.move hm).commands_eq, fun id next hs hq => ?_,
      fun id next hs hq => ⟨?_, ?_⟩, fun id next heq hs => ?_, fun id stage hs ha => ?_⟩
    · rw [handle_eq htable, applied.table, hwf.step_stop hi]
      exact ⟨rfl, rfl⟩
    · rw [handle_eq htable]
      exact effects_eq_nil _ fun output ho => (hwf.step_stop_says hi output ho).2
    · obtain ⟨t, n, hnoted⟩ := h.trace.custody.noted q hq
      have ho := (w.of_connected hnoted).1
      refine ⟨n, fun m' => ⟨fun hm' => w.unique m' n _ hm' ho, fun hm' => hm' ▸ ho⟩, ?_⟩
      rw [queued_append, hnotes, w.queued_stop input' hq ho]
    · rw [queued_append, hnotes, queued_stop_of_ne s input' hn, List.append_nil]
    · rw [stage?_handle, hs, Option.map_some, tell_stop_entry hwf hi hq]
    · rw [stage?_handle, hs, Option.map_some, tell_stop_absent hwf hi hq]
    · rw [handle_eq htable, applied.commands]
      rcases h.awaited id (.waiting next) rfl hs with ⟨i, hi', ⟨hcall⟩⟩ | ⟨-, hpending⟩
      · rcases hcommands i hi' with rfl | hi'
        · cases i <;> contradiction
        · exact List.mem_filterMap.mpr ⟨i, hi', hcall⟩
      · exact absurd (mem_calls_pending.mp hpending) hq
    · subst heq
      rw [stage?_handle, hs, Option.map_some, tell_stop_caller hwf next]
    · rw [stage?_handle, hs, Option.map_some, Stage.foldl_tell_of_not_asking ha]

end Stop

/-! ### From then on -/

/-- How a session with its log can go on, in any order of acts and moves, with all that is seen. -/
inductive Onward (s : Session α) (log : Log α) : Session α → Log α → List (Effect α) → Prop
  | refl : Onward s log s log []
  | act {s' log' seen} (a : Act α) : Onward s log s' log' seen →
      Onward s log (s'.act a) (log' ++ stamp s'.clock (s'.actNotes a)) seen
  | move {s' s'' log' seen m effects} : Onward s log s' log' seen → s'.perform m = some (s'', effects) →
      Onward s log s'' (log' ++ stamp s'.clock (s'.notes m s'')) (seen ++ effects)

/-- What is left of a session that was shut down; `s'` and `log'` are the session and its log later. -/
structure StaysShut (timeout : Duration) (s : Session α) (log : Log α) (s' : Session α) (log' : Log α)
    (seen : List (Effect α)) : Prop where
  table : s'.table = s.table
  /-- No handler is called. -/
  silent : seen.filterMap Effect.notice? = []
  /-- No connection is opened for the table. -/
  lines : ∀ n k : Nat, s'.lines[n]?.map Prod.fst = some (Owner.table k) →
    s.lines[n]?.map Prod.fst = some (Owner.table k)
  /-- Nothing is queued on the connections of the table. -/
  queues : ∀ n k : Nat, s'.lines[n]?.map Prod.fst = some (Owner.table k) → queued n log' = queued n log
  commands : ∀ n owner p, s'.lines[n]? = some (owner, p) → p.attached → p.commands = queued n log'
  /-- A call that waits for the table waits on, or goes on as one does when the session is closed. -/
  refuses : ∀ id stage script, s'.stage? id = some stage → stage.refused? = some script →
    (∀ a, (s'.act a).stage? id = some stage) ∧
    ∀ m s'' effects, s'.perform m = some (s'', effects) →
      s''.stage? id = some stage ∨ s''.stage? id = some (.ready script)
  /-- Shutting down once more only answers the call. -/
  returns : ∀ id rest, s'.commands = .shutdown id :: rest → s'.perform .command =
    some ({ s' with commands := rest }.setCall id fun c => { c with stage := c.stage.answerStop }, [])
  /-- When no move is left, no call waits for the table. -/
  answers : s'.isSettled → ∀ id stage, s'.stage? id = some stage → stage.refused? = none
  /-- It takes only so many moves. -/
  ends : ∀ run : Nat → Session α, run 0 = s' → ∃ i, ∀ m effects, (run i).perform m ≠ some (run (i + 1), effects)
  requests : ∀ start n id channel next, (start, .began n id (.request channel next)) ∈ log' →
    EndToEnd timeout s' log' start n id channel (Envelope.request channel).encode (requestReply channel) next
  publishes : ∀ start n id channel dtype data next,
    (start, .began n id (.publish channel dtype data next)) ∈ log' →
    EndToEnd timeout s' log' start n id channel (Envelope.publish channel dtype data).encode
      (publishReply channel) next

section Onward

variable {timeout : Duration} {s s' s'' : Session α} {log log' : Log α} {seen effects : List (Effect α)}
  {m : Move} {id : Nat} {stage : Stage α} {script : Script α}

theorem Logged.onward (h : Logged timeout s log) (ho : Onward s log s' log' seen) :
    Logged timeout s' log' := by
  induction ho with
  | refl => exact h
  | act a _ ih => exact ih.act a
  | move _ hm ih => exact ih.move hm

theorem perform_silent (hr : s.table.running = false) (hm : s.perform m = some (s', effects)) :
    effects.filterMap Effect.notice? = [] := by
  cases perform_progress hm with
  | quiet _ _ _ he => exact he
  | yields => rfl
  | @handles rest input _ _ htable =>
    rw [handle_eq htable, (applied_outputs _ _).notices, Table.step_of_stopped hr, Table.notices_refusal]

theorem perform_refuses (hr : s.table.running = false) (hm : s.perform m = some (s', effects))
    (hs : s.stage? id = some stage) (hscript : stage.refused? = some script) :
    s'.stage? id = some stage ∨ s'.stage? id = some (.ready script) := by
  cases perform_advance hm with
  | patient _ hp => exact .inl (hp.stays id stage (Option.isSome_of_eq_some hscript) hs)
  | @handles commands events input =>
    rw [stage?_handle, hs, Table.step_of_stopped hr]
    exact (Stage.foldl_tell_refused (Table.refusal_refuses input) hscript).imp (congrArg some) (congrArg some)

private theorem Shut.queued_append {v v' : View α} {notes : List (Note α)} (h : Shut v notes v') {n k : Nat}
    (hn : ownerOf? v'.lines n = some (.table k)) (t : Nat) :
    queued n (log ++ stamp t notes) = queued n log := by
  have hnone : Line.queued (notes.filterMap (Note.use? n)) = [] := by
    refine List.filterMap_eq_nil_iff.mpr fun use huse => ?_
    obtain ⟨note, hm, hnote⟩ := List.mem_filterMap.mp huse
    cases use with
    | queue c =>
      have heq : note = .passed n (.queue c) := by cases note <;> simp_all
      exact absurd (heq ▸ hm) (h.queues n k (h.lines n k hn) c)
    | _ => rfl
  rw [Session.queued_append, hnone, List.append_nil]

/-- A session that was shut down leaves its table and the connections of that alone. -/
private theorem Logged.onward_shut (h : Logged timeout s log) (hr : s.table.running = false)
    (ho : Onward s log s' log' seen) :
    s'.table = s.table ∧ seen.filterMap Effect.notice? = [] ∧
      ∀ n k, ownerOf? s'.lines n = some (.table k) →
        ownerOf? s.lines n = some (.table k) ∧ queued n log' = queued n log := by
  induction ho with
  | refl => exact ⟨rfl, rfl, fun n k hn => ⟨hn, rfl⟩⟩
  | @act s' log' seen a _ ih =>
    obtain ⟨htable, hsilent, hlines⟩ := ih
    have hshut := (act_befalls s' a).shut
    refine ⟨hshut.table.trans htable, hsilent, fun n k hn => ?_⟩
    obtain ⟨hown, hqueued⟩ := hlines n k (hshut.lines n k hn)
    exact ⟨hown, (hshut.queued_append hn _).trans hqueued⟩
  | @move s' s'' log' seen m effects ho hm ih =>
    obtain ⟨htable, hsilent, hlines⟩ := ih
    have hlogged := h.onward ho
    have hstopped : s'.table.running = false := htable ▸ hr
    have hshut := (hlogged.occurs hm).shut hlogged.trace.wired hstopped
    refine ⟨hshut.table.trans htable, ?_, fun n k hn => ?_⟩
    · rw [List.filterMap_append, hsilent, perform_silent hstopped hm, List.append_nil]
    · obtain ⟨hown, hqueued⟩ := hlines n k (hshut.lines n k hn)
      exact ⟨hown, (hshut.queued_append hn _).trans hqueued⟩

/-- When nothing moves and the table is empty, no call waits for it. -/
theorem Logged.rest_answered (h : Logged timeout s log) (hr : s.isSettled) (he : s.table.entries = [])
    (hs : s.stage? id = some stage) : stage.refused? = none := by
  cases hscript : stage.refused? with
  | none => rfl
  | some script =>
    have hasking : stage.isAsking := Option.isSome_of_eq_some hscript
    rcases h.awaited id stage hasking hs with ⟨i, hi, -⟩ | ⟨-, hpending⟩
    · rw [(rest_table hr).1] at hi
      exact absurd hi List.not_mem_nil
    · obtain ⟨q, hq, -⟩ := mem_calls_pending.mp hpending
      rw [he] at hq
      exact absurd hq List.not_mem_nil

theorem perform_shutdown {rest : List Input} (hr : s.table.running = false)
    (hc : s.commands = .shutdown id :: rest) : s.perform .command =
      some ({ s with commands := rest }.setCall id fun c => { c with stage := c.stage.answerStop }, []) := by
  simp only [perform, hc, handle, Table.step_of_stopped hr]
  rfl

theorem Logged.staysShut (h : Logged timeout s log) (hr : s.table.running = false)
    (ho : Onward s log s' log' seen) : StaysShut timeout s log s' log' seen := by
  have hlogged := h.onward ho
  obtain ⟨htable, hsilent, hlines⟩ := h.onward_shut hr ho
  have hstopped : s'.table.running = false := htable ▸ hr
  exact {
    table := htable
    silent := hsilent
    lines := fun n k hn => (hlines n k hn).1
    queues := fun n k hn => (hlines n k hn).2
    commands := fun n owner p => hlogged.commands_eq
    refuses := fun id stage script hs hscript =>
      ⟨fun a => (patient_act s' a).stays id stage (Option.isSome_of_eq_some hscript) hs,
        fun m s'' effects hm => perform_refuses hstopped hm hs hscript⟩
    returns := fun id rest hc => perform_shutdown hstopped hc
    answers := fun hrest id stage hs =>
      hlogged.rest_answered hrest (hlogged.trace.wired.wellFormed.stopped hstopped) hs
    ends := fun run hrun => hlogged.not_endless run hrun
    requests := fun start n id channel next hb =>
      hlogged.endToEnd hb rfl (Exchange.request_replies channel) fun _ => rfl
    publishes := fun start n id channel dtype data next hb =>
      hlogged.endToEnd hb rfl (Exchange.publish_replies channel dtype data) fun _ => rfl }

/-- Shutting down, by a call or because no caller is left, in any state that a session can reach: each
entry has its connection closed and its calls told, no handler is called, and however the session goes on
it stays shut, while one-shot calls keep their outcome. -/
theorem shutdown_closes (h : Logged timeout s log) {input : Input} (hin : s.inputOf? m = some input)
    (hi : input.isStop) (hm : s.perform m = some (s', effects)) :
    ShutDown s log input s' (log ++ stamp s.clock (s.notes m s')) effects ∧
      ∀ s'' log'' seen, Onward s' (log ++ stamp s.clock (s.notes m s')) s'' log'' seen →
        StaysShut timeout s' (log ++ stamp s.clock (s.notes m s')) s'' log'' seen := by
  have hdown := h.shutDown hin hi hm
  exact ⟨hdown, fun s'' log'' seen ho => (h.move hm).staysShut hdown.table.2 ho⟩

/-- Two subscriptions that wait for their connections and a request are there when a session is shut down,
and a third subscribe call is on its way. A connection opens only then. -/
theorem shutdown_closes_subscribed :
    ∃ (s s' : Session (Except CallError Unit)) (log : Log (Except CallError Unit)),
      Logged ⟨5⟩ s log ∧ s.perform .command = some (s', []) ∧ s.table.entries.length = 2 ∧
      ShutDown s log (.shutdown 3) s' (log ++ stamp s.clock (s.notes .command s')) [] ∧
      s'.stage? 0 = some (.ready (.finish (.error .sessionClosed))) ∧
      s'.stage? 2 = some (.ready (.finish (.error .sessionClosed))) ∧
      ∃ s'' log'' seen, Onward s' (log ++ stamp s.clock (s.notes .command s')) s'' log'' seen ∧
        s''.isSettled ∧
        StaysShut ⟨5⟩ s' (log ++ stamp s.clock (s.notes .command s')) s'' log'' seen ∧
        s''.stage? 4 = some (.done (.error .sessionClosed)) := by
  have empty : Logged ⟨5⟩ ({ timeout := ⟨5⟩ } : Session (Except CallError Unit)) [] := .start
  have first := ((empty.act (.call (.subscribe "A" .finish))).move (m := .resume 0) rfl).move (m := .command) rfl
  have asked := (first.act (.call (.request "R" fun r => .finish (r.map fun _ => ())))).move (m := .resume 1) rfl
  have second := ((asked.act (.call (.subscribe "B" .finish))).move (m := .resume 2) rfl).move (m := .command) rfl
  have stopping := (second.act (.call (.shutdown fun _ => .finish (.ok ())))).move (m := .resume 3) rfl
  have third := (stopping.act (.call (.subscribe "C" .finish))).move (m := .resume 4) rfl
  obtain ⟨hdown, hlater⟩ := shutdown_closes third (m := .command) rfl rfl rfl
  have shut {s : Session (Except CallError Unit)} {log : Log (Except CallError Unit)}
    (_ : Logged ⟨5⟩ s log) : Onward s log s log [] := .refl
  have opened := ((shut (third.move (m := .command) rfl)).act (.emit 0 .opened)).move (m := .forward 0) rfl
  have refused := opened.move (m := .command) rfl
  have told := (((refused.move (m := .resume 0) rfl).move (m := .resume 2) rfl).move (m := .resume 3) rfl).move
    (m := .resume 4) rfl
  exact ⟨_, _, _, third, rfl, rfl, hdown, rfl, rfl, _, _, _, told, rfl, hlater _ _ _ told, rfl⟩

end Onward

end RobotBridge.Session
