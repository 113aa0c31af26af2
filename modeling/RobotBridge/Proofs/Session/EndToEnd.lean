import RobotBridge.Proofs.Session.Punctual

/-! One-shot calls from end to end: what is queued on the connection of a request or a publish, and
what the caller is told and when. -/
namespace RobotBridge.Session
open Exchange (requestReply publishReply)

variable {α β : Type}

/-- The life of a one-shot call on the line that it has opened. -/
structure EndToEnd (timeout : Duration) (s : Session α) (log : Log α) (start n id : Nat)
    (channel frame : String) (reply : List Event → Option (Except CallError β))
    (next : Except CallError β → Script α) : Prop where
  /-- The line is opened once, for this call, and no other call uses it. -/
  own : openings n log = [(.call id, channel)] ∧ (starts n log).length = 1
  /-- Nothing is taken after the first event that decides. -/
  undecided : ∀ es e rest, yielded n log = es ++ e :: rest → reply es = none
  /-- The frame goes out at the first opening, and the call closes what it ends itself. -/
  queued : queued n log = (if .opened ∈ yielded n log then [.send frame] else []) ++
    if returned n log = [] ∨ (yielded n log).any Event.isTerminal then [] else [.close CloseCode.normal]
  /-- All of it is on the line to be sent, as long as there is a transport. -/
  commands : ∃ p, s.lines[n]? = some (.call id, p) ∧ (p.attached → p.commands = Session.queued n log)
  /-- The call returns with the first event that decides, or when its time is up. -/
  returned : returned n log = match reply (yielded n log) with
    | some r => [next r]
    | none => if expiries n log = [] then [] else [next (.error (.timeout channel timeout))]
  /-- Time is up no earlier than it should, and not while something waits to be taken. -/
  expired : ∀ before t later, log = before ++ (t, .expired n) :: later →
    start + timeout.nanoseconds ≤ t ∧ reply (yielded n before) = none ∧
      yielded n before = emitted n before ∧ .vanish ∉ traffic n before
  /-- At rest the call has returned if an event has decided or its time is up. -/
  settled : s.isSettled → Session.returned n log = match reply (yielded n log) with
    | some r => [next r]
    | none =>
      if start + timeout.nanoseconds ≤ s.clock then [next (.error (.timeout channel timeout))] else []
  /-- At rest a call that has not returned has taken all that its transport emitted. -/
  caughtUp : s.isSettled → Session.returned n log = [] →
    yielded n log = emitted n log ∧ .vanish ∉ traffic n log
  /-- If the session comes to rest between what comes from outside, nothing is taken when time is up. -/
  prompt : Prompt timeout s log → ∀ t e, (t, .passed n (.yield e)) ∈ log →
    t < start + timeout.nanoseconds

/-! ### From machine to caller -/

variable {timeout : Duration} {s : Session α} {v v' : View α} {log before later : Log α}
  {notes : List (Note α)} {start n id t : Nat} {x : Exchange} {script : Script α}

private theorem outcomes_asked_of_append {es fs : List Event}
    (h : Exchange.outcomes (x.asked (es ++ fs)) = []) : Exchange.outcomes (x.asked es) = [] := by
  rw [Exchange.asked_append, Exchange.outcomes_append] at h
  exact (List.append_eq_nil_iff.mp h).1

variable {reply : List Event → Option (Except CallError β)} {result : Exchange.Outcome → Except CallError β}
  {next : Except CallError β → Script α}

private theorem reply_eq_none (hreply : ∀ es, (Exchange.outcomes (x.asked es)).map result = (reply es).toList)
    {es : List Event} (h : Exchange.outcomes (x.asked es) = []) : reply es = none := by
  have hr := hreply es
  rw [h] at hr
  exact Option.toList_eq_nil_iff.mp hr.symm

private theorem reply_eq_some (hreply : ∀ es, (Exchange.outcomes (x.asked es)).map result = (reply es).toList)
    {es : List Event} {e : Event} {outcome : Exchange.Outcome} (ho : Exchange.outcomes (x.asked es) = [])
    (h : Exchange.outcomes ((x.after es).onEvent e).2 = [outcome]) :
    reply (es ++ [e]) = some (result outcome) := by
  have hr := hreply (es ++ [e])
  rw [Exchange.asked_snoc, Exchange.outcomes_append, ho, h] at hr
  cases hrep : reply (es ++ [e]) <;> simp_all

private theorem OneShot.undecided
    (h : OneShot timeout v log start n id x fun outcome => next (result outcome))
    (hreply : ∀ es, (Exchange.outcomes (x.asked es)).map result = (reply es).toList)
    {es : List Event} {e : Event} {rest : List Event} (hy : yielded n log = es ++ e :: rest) :
    reply es = none := by
  refine reply_eq_none hreply ?_
  cases h with
  | running _ ho | late _ ho =>
    rw [hy] at ho
    exact outcomes_asked_of_append ho
  | @decided es' e' outcome _ hes ho =>
    rw [hes, ← List.dropLast_concat_getLast (List.cons_ne_nil e rest), ← List.append_assoc] at hy
    rw [(List.append_inj' hy rfl).1] at ho
    exact outcomes_asked_of_append ho

private theorem OneShot.queued_eq
    (h : OneShot timeout v log start n id x fun outcome => next (result outcome)) (hx : x.phase = .opening) :
    queued n log = (if .opened ∈ yielded n log then [.send x.frame] else []) ++
      if returned n log = [] ∨ (yielded n log).any Event.isTerminal then []
      else [.close CloseCode.normal] := by
  cases h with
  | running _ ho hq hret => rw [hq, hret, (Exchange.undecided hx ho).sent]; simp
  | @decided es e outcome _ hes ho hone hq hret =>
    have u := Exchange.undecided hx ho
    obtain ⟨-, -, hc⟩ := u.decides (e := e) (by
      rw [Exchange.asked_snoc, Exchange.outcomes_append, hone]
      simp)
    have hlive : es.any Event.isTerminal = false := List.any_eq_false.mpr fun e hm => by simp [u.live e hm]
    rw [hq, hret, hes, hc]
    simp [hlive]
  | late _ ho hq hret =>
    have u := Exchange.undecided hx ho
    have hlive : (yielded n log).any Event.isTerminal = false :=
      List.any_eq_false.mpr fun e hm => by simp [u.live e hm]
    rw [hq, hret, u.sent, hlive]
    simp

private theorem OneShot.returned_eq
    (h : OneShot timeout v log start n id x fun outcome => next (result outcome))
    (hreply : ∀ es, (Exchange.outcomes (x.asked es)).map result = (reply es).toList)
    (hfailed : ∀ error, result (.failed error) = .error error) :
    returned n log = match reply (yielded n log) with
      | some r => [next r]
      | none => if expiries n log = [] then [] else [next (.error (.timeout x.channel timeout))] := by
  cases h with
  | running _ ho _ hret hexp => rw [reply_eq_none hreply ho, hret, hexp]; rfl
  | decided _ hes ho hone _ hret => rw [hes, reply_eq_some hreply ho hone, hret]
  | late _ ho _ hret hexp => rw [reply_eq_none hreply ho, hret, hexp, hfailed]; rfl

/-! ### When time is up -/

private theorem expired_notMem (n : Nat) (errand : Errand α) (actions : List Exchange.Action) :
    .expired n ∉ errand.notes actions := by
  intro hm
  rcases Errand.mem_notes hm with ⟨_, h⟩ | ⟨_, h⟩ <;> contradiction

private theorem Trace.of_expired (h : Trace timeout v log) (hl : log = before ++ (t, .expired n) :: later) :
    ∃ v₀ id errand o p, Trace timeout v₀ before ∧ t = v₀.clock ∧ v₀.runs id n errand ∧
      v₀.lines[n]? = some (o, p) ∧ errand.deadline ≤ t ∧ p.hasEvent = false := by
  obtain ⟨v₀, log₀, v₁, notes, mid, rest, ht, hstep, hnotes, rfl, rfl⟩ := h.split hl
  have hm : .expired n ∈ notes := hnotes ▸ List.mem_append_right _ List.mem_cons_self
  rcases hstep with hstep | hstep
  · obtain ⟨_, h | ⟨_, h⟩⟩ := hstep.of_mem hm <;> cases h
  · cases hstep with
    | idle | begins | falls | forwards | deafens | subscribes => simp at hm
    | feeds =>
      rcases List.mem_cons.mp hm with hm | hm
      · contradiction
      · exact absurd hm (expired_notMem n _ _)
    | @expires _ errand _ _ he hp hd hidle =>
      cases mid with
      | nil =>
        obtain ⟨heq, -⟩ := List.cons.inj hnotes
        obtain rfl := Note.expired.inj heq
        rw [stamp, List.map_nil, List.append_nil]
        exact ⟨v₀, _, _, _, _, ht, rfl, ⟨he, rfl⟩, hp, hd, hidle⟩
      | cons first mid =>
        obtain ⟨-, hrest⟩ := List.cons.inj hnotes
        refine absurd ?_ (expired_notMem n errand (errand.exchange.onTimeout v₀.timeout).2)
        rw [hrest]
        exact List.mem_append_right mid List.mem_cons_self
    | handles _ _ _ hcarried =>
      obtain ⟨_, _, _, heq, -⟩ := hcarried.onlyQueue _ hm
      contradiction

/-- A call that has its line by then has started before. -/
private theorem Wired.began_before (w : Wired timeout v log) {v₀ : View α} (w₀ : Wired timeout v₀ before)
    (hl : log = before ++ later) {other : Nat} (ho : ownerOf? v₀.lines n = some (.call other))
    (hb : (start, .began n id script) ∈ log) : (start, .began n id script) ∈ before ∧ other = id := by
  obtain ⟨-, hone⟩ := w.of_began hb
  obtain ⟨-, hstarts⟩ := w₀.opened n _ ho
  obtain ⟨first, hfirst, hother⟩ := List.map_eq_singleton_iff.mp hstarts
  have happ : starts n log = starts n before ++ starts n later := by
    rw [hl, starts, pick, List.filterMap_append]
    rfl
  rw [hone, hfirst, List.singleton_append] at happ
  obtain ⟨rfl, hnil⟩ := List.cons.inj happ
  refine ⟨?_, hother.symm⟩
  rcases List.mem_append.mp (hl ▸ hb) with hm | hm
  · exact hm
  · have hin : (id, script) ∈ starts n later := List.mem_filterMap.mpr ⟨_, hm, by simp⟩
    exact absurd hin (hnil ▸ List.not_mem_nil)

/-- When a call runs out of time, its time is up and nothing waits for it. -/
private theorem Trace.expired_spec {next : Exchange.Outcome → Script α} (h : Trace timeout v log)
    (hb : (start, .began n id script) ∈ log) (hs : script.oneShot? = some (x, next))
    (hl : log = before ++ (t, .expired n) :: later) :
    start + timeout.nanoseconds ≤ t ∧ Exchange.outcomes (x.asked (yielded n before)) = [] ∧
      yielded n before = emitted n before ∧ .vanish ∉ traffic n before := by
  obtain ⟨v₀, other, errand, o, p, ht, rfl, hruns, hp, hd, hidle⟩ := h.of_expired hl
  obtain ⟨rfl, hlisten⟩ := ht.wired.of_errand hruns.1 (hruns.2 ▸ hp)
  obtain ⟨hb₀, rfl⟩ := h.wired.began_before ht.wired hl (ownerOf?_eq_some.mpr ⟨p, hp⟩) hb
  obtain ⟨rfl, ho, -⟩ := (ht.oneShot hb₀ hs).eq_of_runs hruns
  have hterm := not_terminated ht.wired (oneShot?_phase hs) hp ho
  exact ⟨hd, ho, (ht.wired.passes n _ p hp).told.caught_up hlisten hterm hidle⟩

/-! ### At rest -/

/-- At rest a call that has not returned has time left, and nothing waits for it. -/
private theorem Logged.rest_spec {next : Exchange.Outcome → Script α} (h : Logged timeout s log)
    (hr : s.isSettled) (hb : (start, .began n id script) ∈ log) (hs : script.oneShot? = some (x, next))
    (hret : returned n log = []) :
    s.clock < start + timeout.nanoseconds ∧ expiries n log = [] ∧
      yielded n log = emitted n log ∧ .vanish ∉ traffic n log := by
  have ht := h.trace
  cases ht.oneShot hb hs with
  | running hruns ho _ _ hexp =>
    obtain ⟨q, hq, hlisten⟩ := ht.wired.errands id _ hruns.1
    obtain ⟨hidle, hclock⟩ := rest_errand hr hruns.1 hq
    have hterm := not_terminated ht.wired (oneShot?_phase hs) hq ho
    exact ⟨hclock, hexp, (ht.wired.passes n _ q hq).told.caught_up hlisten hterm hidle⟩
  | decided _ _ _ _ _ hret' => simp [hret'] at hret
  | late _ _ _ hret' => simp [hret'] at hret

private theorem Logged.late_spec {next : Exchange.Outcome → Script α} (h : Logged timeout s log)
    (hb : (start, .began n id script) ∈ log) (hs : script.oneShot? = some (x, next))
    (hexp : expiries n log ≠ []) : start + timeout.nanoseconds ≤ s.clock := by
  obtain ⟨u, hu⟩ := List.exists_mem_of_ne_nil _ hexp
  obtain ⟨⟨t, note⟩, hm, hnote⟩ := List.mem_filterMap.mp hu
  have hexpired : note = .expired n := by
    cases note <;> simp_all
  subst hexpired
  obtain ⟨before, later, hl⟩ := List.append_of_mem hm
  exact Nat.le_trans (h.trace.expired_spec hb hs hl).1 (h.trace.wired.past _ hm)

/-! ### From end to end -/

private theorem Trace.connected {next : Exchange.Outcome → Script α} (h : Trace timeout v log)
    (hb : (start, .began n id script) ∈ log) (hs : script.oneShot? = some (x, next)) :
    (start, .connected n (.call id) x.channel) ∈ log := by
  induction h with
  | start => exact absurd hb List.not_mem_nil
  | act _ hstep ih =>
    rcases List.mem_append.mp hb with hb | hb
    · exact List.mem_append_left _ (ih hb)
    · obtain ⟨_, h | ⟨_, h⟩⟩ := hstep.of_mem (mem_stamp.mp hb).2 <;> cases h
  | move _ hstep ih =>
    rcases List.mem_append.mp hb with hb | hb
    · exact List.mem_append_left _ (ih hb)
    · obtain ⟨rfl, hm⟩ := mem_stamp.mp hb
      obtain ⟨-, -, hnotes⟩ := hstep.of_began hm hs
      exact List.mem_append_right _ (mem_stamp.mpr ⟨rfl, hnotes ▸ List.mem_cons_self⟩)

theorem Logged.endToEnd (h : Logged timeout s log) (hb : (start, .began n id script) ∈ log)
    (hs : script.oneShot? = some (x, fun outcome => next (result outcome)))
    (hreply : ∀ es, (Exchange.outcomes (x.asked es)).map result = (reply es).toList)
    (hfailed : ∀ error, result (.failed error) = .error error) :
    EndToEnd timeout s log start n id x.channel x.frame reply next := by
  have ht := h.trace
  have hone := ht.oneShot hb hs
  obtain ⟨ho, hstarts⟩ := ht.wired.of_began hb
  obtain ⟨c, hc⟩ := (ht.wired.opened n _ ho).1
  have hopening : (.call id, x.channel) ∈ openings n log :=
    List.mem_filterMap.mpr ⟨_, ht.connected hb hs, by simp⟩
  have hret := hone.returned_eq hreply hfailed
  refine ⟨⟨?_, by rw [hstarts]; rfl⟩, fun es e rest hy => hone.undecided hreply hy,
    hone.queued_eq (oneShot?_phase hs), h.commands_of_connected (ht.connected hb hs), hret, fun before t later hl => ?_, fun hr => ?_, fun hr hnil => ?_,
    fun hp t e hy => hp.in_time hb hs hy⟩
  · rw [hc] at hopening ⊢
    rw [← List.mem_singleton.mp hopening]
  · obtain ⟨hdue, hout, hall⟩ := ht.expired_spec hb hs hl
    exact ⟨hdue, reply_eq_none hreply hout, hall⟩
  · rw [hret]
    cases hrep : reply (yielded n log) with
    | some r => rfl
    | none =>
      rw [hrep] at hret
      by_cases hexp : expiries n log = []
      · rw [if_pos hexp] at hret
        have hclock := (h.rest_spec hr hb hs hret).1
        simp [hexp, Nat.not_le.mpr hclock]
      · simp [hexp, h.late_spec hb hs hexp]
  · exact (h.rest_spec hr hb hs hnil).2.2

end RobotBridge.Session
