import RobotBridge.Proofs.Session.Schedule

/-! The stream of a handler in a whole session: ports, the way to the table and the table together. -/
namespace RobotBridge.Session
open Table (Opens answers eventsIn eventsOf joiners heard seen verdict)

variable {c : String} {k call : Nat} {before later : List Table.Input}

/-- While the table runs, the calls of the handler whose call opened a connection are its stream,
under any schedule. What the port of the connection yields, and nothing else, is handled after the
opening, in order, except for what is on its way. The deciding event answers the call that opened
the connection and all that joined it, and if it decides against it the entry is gone. -/
theorem handler_stream {α : Type} {timeout : Duration} {s : Session α} {h : History α}
    (hs : Reached timeout s h) (hr : s.table.running)
    (hin : h.inputs = before ++ .subscribe call c :: later) (ho : Opens before call c k) :
    eventsOf k h.yields = (seen c k later).filterMap event? ++ eventsOf k s.events ∧
    heard k (({} : Table).after (before ++ [.subscribe call c])) later =
      (stream c (seen c k later)).map (call, ·) ∧
    ((∀ d, .subscribe call d ∉ before ++ later) →
      ((h.effects.filterMap Effect.notice?).filter fun p => p.1 = call).map Prod.snd =
        stream c (seen c k later)) ∧
    ∀ mid e rest v, later = mid ++ .event k e :: rest →
      (∀ e ∈ eventsOf k (eventsIn mid), verdict c e = none) → verdict c e = some v →
      let t := ({} : Table).after (before ++ .subscribe call c :: mid)
      answers (t.step (.event k e)).2 = (call :: joiners c mid).map (·, v.map fun _ => ()) ∧
      ∀ failure, v = .error failure →
        stream c (seen c k later) = [] ∧ (t.step (.event k e)).1.entryOf? c = none := by
  have hc := hs.consistent
  have hr' : (({} : Table).after (before ++ .subscribe call c :: later)).running := by
    rwa [hc.table, hin] at hr
  refine ⟨?_, ho.heard_eq hr', fun hone => ?_, ?_⟩
  · have ht := hc.timely
    rw [hin] at ht
    rw [hc.yields hr, hin, Table.eventsOf_append, ho.eventsOf_eq ht, Table.eventsOf_seen]
  · have hto := ho.noticesTo_eq hr' hone
    rwa [Table.noticesTo, ← hin, ← hc.said] at hto
  · rintro mid e rest v rfl hu hv
    have hdec := ho.decides hu hv hr'
    cases v with
    | ok envelope =>
      refine ⟨?_, fun _ hf => by contradiction⟩
      rw [hdec]
      simp [Except.map]
    | error failure =>
      obtain ⟨hans, hgone⟩ := hdec
      refine ⟨hans, fun _ _ => ⟨Table.stream_rejected hu hv rest, hgone⟩⟩

/-- A connection that yields an envelope and then fails, while its call waits. -/
theorem handler_stream_until_failure :
    ∃ (s : Session Unit) (h : History Unit), Reached ⟨0⟩ s h ∧ s.table.running ∧
      eventsOf 0 h.yields = [.message Envelope.init.encode, .failed "lost"] ∧
      ((h.effects.filterMap Effect.notice?).filter fun p => p.1 = 0).map Prod.snd =
        [.message .init, .error (.connection "A" "lost")] ∧
      answers ((({} : Table).after [.subscribe 0 "A"]).step (.event 0 (.message Envelope.init.encode))).2 =
        [(0, .ok ())] := by
  have made : Reached ⟨0⟩ _ _ := .act (.call (.subscribe "A" fun _ => .finish ())) .start
  have opened := (made.move (m := .resume 0) rfl).move (m := .command) rfl
  have fed := (opened.act (.emit 0 (.message Envelope.init.encode))).act (.emit 0 (.failed "lost"))
  have passed := (fed.move (m := .forward 0) rfl).move (m := .forward 0) rfl
  have handled := (passed.move (m := .event) rfl).move (m := .event) rfl
  obtain ⟨hy, _, hn, ha⟩ := handler_stream handled rfl
    (rfl : _ = [] ++ Table.Input.subscribe 0 "A" ::
      [.event 0 (.message Envelope.init.encode), .event 0 (.failed "lost")])
    (show Opens [] 0 "A" 0 from List.mem_cons_self)
  obtain ⟨hans, _⟩ := ha [] (.message Envelope.init.encode) [.event 0 (.failed "lost")] (.ok .init) rfl
    (fun _ hm => absurd hm List.not_mem_nil) rfl
  exact ⟨_, _, handled, rfl, hy, hn (by simp), hans⟩

end RobotBridge.Session
