import RobotBridge.Proofs.Session.Custody
import RobotBridge.Proofs.Session.Termination
import RobotBridge.Proofs.Session.Waiting

/-! Sessions at rest: whoever still waits does so for a transport that is there and has not ended. -/
namespace RobotBridge.Session

variable {α : Type} {timeout : Duration} {v : View α} {s : Session α} {log : Log α} {n k id : Nat}

/-- The transport of a line has emitted a terminal event, or is gone. -/
def Dead (n : Nat) (log : Log α) : Prop :=
  (∃ e ∈ emitted n log, e.isTerminal) ∨ .vanish ∈ traffic n log

/-- A line that listens has yielded all there is when it has nothing more to yield. -/
private theorem Wired.not_dead (w : Wired timeout v log) {o : Owner} {p : Line}
    (hp : v.lines[n]? = some (o, p)) (hl : p.listening) (ht : p.terminated = false)
    (he : p.hasEvent = false) : ¬Dead n log := by
  have htold := (w.passes n o p hp).told
  obtain ⟨hall, hthere⟩ := htold.caught_up hl ht he
  rintro (⟨e, hm, hend⟩ | hgone)
  · rw [htold.terminated] at ht
    exact absurd hend (List.any_eq_false.mp ht e (hall ▸ hm))
  · exact hthere hgone

private theorem Logged.not_dead_of_errand (h : Logged timeout s log) (hr : s.isSettled) {errand : Errand α}
    (he : s.errand? id = some errand) : ¬Dead errand.line log := by
  have ht := h.trace
  obtain ⟨p, hp, hl⟩ := ht.wired.errands id errand he
  obtain ⟨x, hx, -, hout⟩ := ht.undecided_of_errand he
  exact ht.wired.not_dead hp hl (not_terminated ht.wired hx hp hout) (rest_errand hr he hp).1

private theorem Logged.not_dead_of_holds (h : Logged timeout s log) (hr : s.isSettled)
    (ho : ownerOf? s.lines n = some (.table k)) (hk : s.table.Holds k) : ¬Dead n log := by
  have ht := h.trace
  have hrun := ht.wired.wellFormed.running_of_holds hk
  obtain ⟨p, hp⟩ := ownerOf?_eq_some.mp ho
  cases hterm : p.terminated with
  | false => exact ht.wired.not_dead hp (ht.wired.listening hrun n k p hp) hterm (rest_forward hr hp)
  | true =>
    -- The end of the connection is on its way to the table, but at rest nothing is.
    obtain ⟨e, hm, -⟩ := ht.custody.ending n k p hp hk hterm
    have hnone : s.view.events = [] := (rest_table hr).2
    rw [hnone] at hm
    exact absurd hm List.not_mem_nil

/-- An entry that somebody waits for holds a connection that was opened. -/
private theorem Logged.exists_entry (h : Logged timeout s log) (hr : s.isSettled) (hw : s.Waits id) :
    ∃ q ∈ s.table.entries, (id ∈ q.2.subscribers ∨ id ∈ q.2.unsubscribers) ∧
      ∃ n, ownerOf? s.lines n = some (.table q.2.connection) := by
  obtain ⟨next, hs⟩ := hw
  have hm := h.awaited id (.waiting next) rfl hs
  rw [(rest_table hr).1] at hm
  obtain ⟨-, hm⟩ := hm.resolve_left fun ⟨_, hi, _⟩ => List.not_mem_nil hi
  obtain ⟨w, hw, hid⟩ := List.mem_filterMap.mp hm
  obtain ⟨q, hq, hw⟩ := List.mem_flatMap.mp hw
  have hin : id ∈ Table.calls (q.2.waiting q.1) := List.mem_filterMap.mpr ⟨w, hw, hid⟩
  rw [Entry.calls_waiting] at hin
  obtain ⟨t, n, hnoted⟩ := h.trace.custody.noted q hq
  exact ⟨q, hq, List.mem_append.mp hin, n, (h.trace.wired.of_connected hnoted).1⟩

/-- No session goes on by itself forever: no sequence of moves from it is endless. When no move is left,
nobody waits on a connection whose transport has emitted its end or is gone: no one-shot call is on it,
and no live entry holds it. Each subscribe or unsubscribe call that still waits does so with an entry of
a connection whose transport is there. -/
theorem no_call_hangs (h : Logged timeout s log) :
    (∀ run : Nat → Session α, run 0 = s →
      ∃ i, ∀ m effects, (run i).perform m ≠ some (run (i + 1), effects)) ∧
    (s.isSettled →
      (∀ n, Dead n log →
        (∀ id x deadline next, s.stage? id ≠ some (.exchanging n x deadline next)) ∧
        ∀ k, s.lines[n]?.map Prod.fst = some (.table k) → ∀ q ∈ s.table.entries, q.2.connection ≠ k) ∧
      ∀ id next, s.stage? id = some (.waiting next) →
        ∃ q ∈ s.table.entries, (id ∈ q.2.subscribers ∨ id ∈ q.2.unsubscribers) ∧
          ∃ n, s.lines[n]?.map Prod.fst = some (.table q.2.connection) ∧ ¬Dead n log) := by
  refine ⟨fun run hs => h.not_endless run hs, fun hr => ⟨fun n hdead =>
    ⟨fun id x deadline next hs => ?_, fun k ho q hq hk => ?_⟩, fun id next hs => ?_⟩⟩
  · exact h.not_dead_of_errand hr (errand?_of_stage? hs) hdead
  · exact h.not_dead_of_holds hr ho ⟨q, hq, hk⟩ hdead
  · obtain ⟨q, hq, hin, n, ho⟩ := h.exists_entry hr ⟨next, hs⟩
    exact ⟨q, hq, hin, n, ho, h.not_dead_of_holds hr ho ⟨q, hq, rfl⟩⟩

/-- A subscription whose transport went away and a request whose connection closed have been told so. A
second subscription waits for its first message. -/
theorem no_call_hangs_at_rest :
    ∃ (s : Session Unit) (log : Log Unit), Logged ⟨5⟩ s log ∧ s.isSettled ∧
      (Dead 0 log ∧ s.lines[0]?.map Prod.fst = some (.table 0) ∧ ∀ q ∈ s.table.entries, q.2.connection ≠ 0) ∧
      (Dead 1 log ∧ ∀ id x deadline next, s.stage? id ≠ some (.exchanging 1 x deadline next)) ∧
      ∃ q ∈ s.table.entries, (2 ∈ q.2.subscribers ∨ 2 ∈ q.2.unsubscribers) ∧
        ∃ n, s.lines[n]?.map Prod.fst = some (.table q.2.connection) ∧ ¬Dead n log := by
  have empty : Logged ⟨5⟩ ({ timeout := ⟨5⟩ } : Session Unit) [] := .start
  have first := ((empty.act (.call (.subscribe "A" fun _ => .finish ()))).move (m := .resume 0) rfl).move
    (m := .command) rfl
  have greeted := ((first.act (.emit 0 .opened)).move (m := .forward 0) rfl).move (m := .event) rfl
  have gone := (((greeted.act (.dropTransport 0)).move (m := .forward 0) rfl).move (m := .event) rfl).move
    (m := .resume 0) rfl
  have asked := (gone.act (.call (.request "B" fun _ => .finish ()))).move (m := .resume 1) rfl
  have closed := ((asked.act (.emit 1 (.closed CloseCode.abnormal))).move (m := .take 1) rfl).move
    (m := .resume 1) rfl
  have second := ((closed.act (.call (.subscribe "C" fun _ => .finish ()))).move (m := .resume 2) rfl).move
    (m := .command) rfl
  obtain ⟨-, hrest⟩ := no_call_hangs second
  obtain ⟨hdead, hwaits⟩ := hrest rfl
  have hgone := hdead 0 (.inr (List.mem_of_getElem? (i := 3) rfl))
  have hclosed := hdead 1 (.inl ⟨_, List.mem_of_getElem? (i := 0) rfl, rfl⟩)
  exact ⟨_, _, second, rfl, ⟨.inr (List.mem_of_getElem? (i := 3) rfl), rfl, hgone.2 0 rfl⟩,
    ⟨.inl ⟨_, List.mem_of_getElem? (i := 0) rfl, rfl⟩, hclosed.1⟩, hwaits 2 _ rfl⟩

end RobotBridge.Session
