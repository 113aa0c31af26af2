import RobotBridge.Proofs.Session.Delivery
import RobotBridge.Proofs.Session.Replies

/-! What callers may rely on: when a handler is called for the first time, and that after an
unsubscribe it is called no more. -/
namespace RobotBridge.Session.Table
open Entry (Turn answerAll)

variable {inputs before later rest : List Input} {input : Input} {c : String} {k n call : Nat}

/-- An input that makes a connection's handler be called does not stop the table. -/
private theorem running_of_connection? (hk : input.connection? = some k) {notice : Notice}
    (hm : .handled call notice ∈ ((({} : Table).after before).step input).2) :
    (({} : Table).after (before ++ [input])).running := by
  have h := wellFormed_after before
  rw [after_append]
  have hc := step_change h input
  obtain ⟨d, entry, he, _, _⟩ := hc.of_notice (mem_notices.mpr hm)
  have hmem := h.mem_of_entryOf? he
  have hr : (({} : Table).after before).running := by
    cases hr : (({} : Table).after before).running with
    | true => rfl
    | false => simp [h.stopped hr] at hmem
  exact hc.running hr (by cases input <;> simp_all [Input.connection?, Input.event?, Input.isStop])

/-- The handler of a call is called as it should be for the first time: its call opened a connection,
a message on that connection holds an envelope, and the handler is given it in the step that answers
the call `ok`, before the answer. -/
def CalledOnAnswer (inputs : List Input) (call : Nat) : Prop :=
  ∃ before c k mid text envelope rest joined,
    inputs = before ++ .subscribe call c :: (mid ++ .event k (.message text) :: rest) ∧
    Opens before call c k ∧
    (∀ notice, .handled call notice ∉ ({} : Table).said (before ++ .subscribe call c :: mid)) ∧
    ((({} : Table).after (before ++ .subscribe call c :: mid)).step (.event k (.message text))).2 =
      .handled call (.message envelope) :: answerAll (call :: joined) (.ok ())

/-- The first call of a handler passes on the envelope that decides the connection of its call. -/
private theorem first_call (h : (calls inputs).Nodup) {notice : Notice}
    (hm : .handled call notice ∈ ({} : Table).said inputs) : CalledOnAnswer inputs call := by
  obtain ⟨before, c, later, input, rest, k, rfl, ho, hk, hi⟩ := opener_of_handled hm
  have hr := running_of_connection? hk hi
  rw [List.append_assoc, List.cons_append] at hr
  have hheard : (call, notice) ∈ (stream c (seen c k (later ++ [input]))).map (call, ·) := by
    rw [← ho.heard_eq hr, heard_append, heard, if_pos hk]
    rw [List.append_cons, after_append] at hi
    exact List.mem_append_right _ (List.mem_append_left _ (mem_notices.mpr hi))
  -- Only a connection that is decided for has a stream.
  rcases undecided_or_decided c k (later ++ [input]) with hu | ⟨mid, e, more, v, heq, hu, hv⟩
  · simp [stream_eq_nil hu] at hheard
  · rw [heq] at hheard hr
    cases v with
    | error failure => simp [stream_rejected hu hv] at hheard
    | ok envelope =>
      have hdec := ho.decides hu hv hr
      cases e with
      | opened | closed | failed => simp [verdict] at hv
      | message text =>
        have hin : before ++ .subscribe call c :: (later ++ input :: rest) =
            before ++ .subscribe call c :: (mid ++ .event k (.message text) :: (more ++ rest)) := by
          rw [List.append_cons later, heq]
          simp
        refine ⟨before, c, k, mid, text, envelope, more ++ rest, joiners c mid, hin, ho, ?_, hdec⟩
        have hmid : (({} : Table).after (before ++ .subscribe call c :: mid)).running := by
          rw [← List.cons_append, ← List.append_assoc, after_append] at hr
          exact (wellFormed_after _).running_of_after hr
        have hone (d : String) : .subscribe call d ∉ before ++ mid := fun hd =>
          notMem_of_call? (hin ▸ h) rfl rfl (show .subscribe call d ∈ before ++ (mid ++ _) by
            rw [← List.append_assoc]
            exact List.mem_append_left _ hd)
        refine noticesTo_eq_nil.mp ?_
        rw [ho.noticesTo_eq hmid hone, stream_eq_nil hu]

/-- The step that grants an unsubscribe call: the channel has no entry after it. -/
private theorem Change.granted {t t' : Table} {out : List Output} (h : t.WellFormed)
    (hc : Change t input t' out)
    (hsame : ∀ w, w ∈ t.pending ∨ w = input → w.call? = some n → w = .unsubscribe n c)
    (hok : .answered n (.ok ()) ∈ out) :
    t'.running ∧ t'.entryOf? c = none ∧ notices out = [] := by
  cases hc with
  | absent hr he =>
    obtain rfl : n = _ := by simpa using hok
    cases hsame _ (.inr rfl) rfl
    exact ⟨hr, he, rfl⟩
  | @turn d entry o _ _ hr hd ht =>
    have hm := h.mem_of_entryOf? hd
    cases ht with
    | again =>
      obtain rfl : n = _ := by simpa using hok
      cases hsame _ (.inr rfl) rfl
    | accept _ =>
      have hn := by simpa using hok
      cases hsame _ (.inl (mem_pending_subscribe hm hn)) rfl
    | part _ =>
      have hn := by simpa using hok
      cases hsame _ (.inl (mem_pending_unsubscribe hm hn)) rfl
      exact ⟨hr, entryOf?_place_self h.ascending _ _, by simp⟩
    | _ => simp at hok
  | stop _ _ => simp [answered_mem_close] at hok
  | refuse _ => cases input <;> simp [refusal] at hok
  | opens | stray | list => simp at hok

/-- Once an unsubscribe call is granted, its channel has no entry and no handler is called in the same step. -/
theorem granted (h : (calls (before ++ input :: rest)).Nodup)
    (hu : .unsubscribe n c ∈ before ++ [input])
    (hok : .answered n (.ok ()) ∈ ((({} : Table).after before).step input).2) :
    (({} : Table).after (before ++ [input])).running ∧
      (({} : Table).after (before ++ [input])).entryOf? c = none ∧
      notices ((({} : Table).after before).step input).2 = [] := by
  have hwf := wellFormed_after before
  rw [List.append_cons, calls_append] at h
  have hsame (w : Input) (hw : w ∈ (({} : Table).after before).pending ∨ w = input)
      (hn : w.call? = some n) : w = .unsubscribe n c := by
    refine eq_of_call? (List.nodup_append.mp h).1 ?_ hu hn rfl
    rcases hw with hw | rfl
    · exact List.mem_append_left _ (mem_of_mem_pending hw)
    · simp
  rw [after_append]
  exact (step_change hwf input).granted hwf hsame hok

theorem WellFormed.entryOf?_after_eq_none {t : Table} (h : t.WellFormed) (he : t.entryOf? c = none)
    (hno : ∀ m, .subscribe m c ∉ inputs) : (t.after inputs).entryOf? c = none := by
  cases hl : (t.after inputs).entryOf? c with
  | none => rfl
  | some entry =>
    have hm := (h.after inputs).mem_of_entryOf? hl
    rcases h.opener hm with ⟨old, hold, _⟩ | ⟨_, _, rfl, _⟩
    · exact absurd rfl ((entryOf?_eq_none_iff h.ascending).mp he _ hold)
    · exact absurd (by simp) (hno entry.owner)

/-- Once its channel has no entry, an earlier subscribe call owns no entry any more. -/
theorem owner_ne (h : (calls (before ++ rest)).Nodup) (he : (({} : Table).after before).entryOf? c = none)
    (hs : .subscribe call c ∈ before) {d : String} {entry : Entry}
    (hm : (d, entry) ∈ (({} : Table).after (before ++ rest)).entries) : entry.owner ≠ call := by
  rintro rfl
  have hwf := wellFormed_after before
  -- The entry must be of the channel of the call, and must be newer than the call.
  obtain ⟨xs, ys, hin, _⟩ := opener hm
  have hd : Input.subscribe entry.owner d ∈ before ++ rest := by
    rw [hin]
    simp
  cases eq_of_call? h hd (List.mem_append_left _ hs) rfl rfl
  rcases hwf.opener (after_append {} before rest ▸ hm) with ⟨old, hold, _⟩ | ⟨xs, ys, rfl, _⟩
  · exact absurd rfl ((entryOf?_eq_none_iff hwf.ascending).mp he _ hold)
  · have hcall : entry.owner ∈ calls before := List.mem_filterMap.mpr ⟨_, hs, rfl⟩
    have hlate : entry.owner ∈ calls (xs ++ .subscribe entry.owner c :: ys) :=
      List.mem_filterMap.mpr ⟨.subscribe entry.owner c, by simp, rfl⟩
    rw [calls_append] at h
    exact (List.nodup_append.mp h).2.2 _ hcall _ hlate rfl

/-- Once its channel has no entry, the handler of an earlier subscribe call is called no more. -/
theorem not_called (h : (calls (before ++ rest)).Nodup)
    (he : (({} : Table).after before).entryOf? c = none) (hs : .subscribe call c ∈ before)
    (notice : Notice) : .handled call notice ∉ (({} : Table).after before).said rest := by
  intro hm
  obtain ⟨mid, input, later, rfl, hi⟩ := mem_said.mp hm
  have hwf := (wellFormed_after before).after mid
  obtain ⟨d, entry, hd, hcall, _⟩ := (step_change hwf input).of_notice (mem_notices.mpr hi)
  have hmid : (calls (before ++ mid)).Nodup := by
    rw [← List.append_assoc, calls_append] at h
    exact (List.nodup_append.mp h).1
  have hm := hwf.mem_of_entryOf? hd
  rw [← after_append] at hm
  exact owner_ne hmid he hs hm hcall

private theorem opened_lt_after {d : String} (hm : .opened k d ∈ ({} : Table).said inputs) :
    k < (({} : Table).after inputs).nextConnection := by
  obtain ⟨first, input, later, rfl, hi⟩ := mem_said.mp hm
  have h := wellFormed_after first
  rw [after_append, after_cons]
  exact Nat.lt_of_lt_of_le ((step_change h input).opened_lt hi) ((h.step input).nextConnection_le_after later)

/-- A call that comes in has a number of its own. Then a handler is called only if its subscribe call
opened a connection, and is first given an envelope, just before that call is answered `ok`: no
other answer and no other way to subscribe goes with a handler that is called. When an unsubscribe
call has been answered `ok`, no handler given before for the channel is called again, and the next
subscribe call opens a connection that was never opened before, unless the table was stopped in
between: then it is told that the session is closed. -/
theorem handler_guarantees (inputs : List Input) (h : (calls inputs).Nodup) :
    (∀ call notice, .handled call notice ∈ ({} : Table).said inputs → CalledOnAnswer inputs call) ∧
    (∀ before call c later, inputs = before ++ .subscribe call c :: later →
      ((∀ k, ¬Opens before call c k) ∨
        ∃ failure, .answered call (.error failure) ∈ ({} : Table).said inputs) →
      ∀ notice, .handled call notice ∉ ({} : Table).said inputs) ∧
    ∀ before input rest n c, inputs = before ++ input :: rest → .unsubscribe n c ∈ before ++ [input] →
      .answered n (.ok ()) ∈ ((({} : Table).after before).step input).2 →
      (∀ call, .subscribe call c ∈ before →
        ∀ notice, .handled call notice ∉ (({} : Table).after before).said (input :: rest)) ∧
      ∀ mid call later, rest = mid ++ .subscribe call c :: later → (∀ m, .subscribe m c ∉ mid) →
        ((∀ i ∈ mid, i.isStop = false) → ∃ k, Opens (before ++ input :: mid) call c k ∧
          ∀ d, .opened k d ∉ ({} : Table).said (before ++ input :: mid)) ∧
        ((∃ i ∈ mid, i.isStop) →
          ((({} : Table).after (before ++ input :: mid)).step (.subscribe call c)).2 =
            [.answered call (.error .sessionClosed), .released call]) := by
  refine ⟨fun call notice hm => first_call h hm, ?_, ?_⟩
  · rintro before call c later rfl hbad notice hm
    obtain ⟨before', c', k, mid, text, envelope, rest, joined, hin, ho, _, hout⟩ := first_call h hm
    obtain ⟨rfl, heq, _⟩ := split_eq_of_call? h hin rfl rfl
    obtain ⟨_, rfl⟩ := Input.subscribe.inj heq
    rcases hbad with hno | ⟨failure, hfail⟩
    · exact hno k ho
    · have hok : .answered call (.ok ()) ∈ ({} : Table).said (before ++ .subscribe call c :: later) := by
        refine mem_said.mpr ⟨before ++ .subscribe call c :: mid, .event k (.message text), rest, ?_, ?_⟩
        · rw [hin]
          simp
        · rw [hout]
          simp
      exact absurd (answered_once h hok hfail) (by simp)
  · rintro before input rest n c rfl hu hok
    obtain ⟨hr, he, hout⟩ := granted h hu hok
    have h' : (calls ((before ++ [input]) ++ rest)).Nodup := by simpa using h
    refine ⟨fun call hs notice hm => ?_, ?_⟩
    · rcases List.mem_append.mp (said_cons _ _ _ ▸ hm) with hm | hm
      · exact absurd (mem_notices.mpr hm) (by simp [hout])
      · refine not_called h' he (List.mem_append_left _ hs) notice ?_
        rwa [after_append]
    · rintro mid call later rfl hno
      have hwf := wellFormed_after (before ++ [input])
      have hnone := hwf.entryOf?_after_eq_none he hno
      rw [← after_append, List.append_assoc, List.singleton_append] at hnone
      refine ⟨fun hrun => ?_, fun hstop => ?_⟩
      · have hr' := hwf.running_after hr hrun
        rw [← after_append, List.append_assoc, List.singleton_append] at hr'
        refine ⟨_, ?_, fun d hd => Nat.lt_irrefl _ (opened_lt_after hd)⟩
        simp only [Opens, step, hr', subscribe, hnone]
        exact List.mem_cons_self
      · have hr' := hwf.stopped_after hstop
        rw [← after_append, List.append_assoc, List.singleton_append] at hr'
        simp only [step, hr']

/-- One channel is subscribed to again while the table runs, another after it was stopped. -/
theorem handlers_around_shutdown :
    let inputs : List Input := [.subscribe 0 "A", .event 0 (.message Envelope.init.encode),
      .unsubscribe 1 "A", .event 0 (.closed 1000), .unsubscribe 2 "B", .subscribe 3 "A", .shutdown 4,
      .subscribe 5 "B"]
    (calls inputs).Nodup ∧
      (∃ before c k, Opens before 0 c k) ∧
      (∀ notice, .handled 3 notice ∉ ({} : Table).said inputs) ∧
      (∀ notice, .handled 0 notice ∉ (({} : Table).after (inputs.take 3)).said (inputs.drop 3)) ∧
      (∃ k, Opens (inputs.take 5) 3 "A" k) ∧
      ((({} : Table).after (inputs.take 7)).step (.subscribe 5 "B")).2 =
        [.answered 5 (.error .sessionClosed), .released 5] := by
  intro inputs
  have h : (calls inputs).Nodup := by decide
  obtain ⟨hfirst, hnever, hafter⟩ := handler_guarantees inputs h
  obtain ⟨before, c, k, _, _, _, _, _, _, ho, _⟩ :=
    hfirst 0 (.message .init) (mem_notices.mp (show _ ∈ [(0, _)] from List.mem_cons_self))
  have hfailed : (3, .error .sessionClosed) ∈ answers (({} : Table).said inputs) :=
    show _ ∈ [_, _, _, _, _] by simp
  obtain ⟨hgone, hnext⟩ := hafter (inputs.take 3) (.event 0 (.closed 1000)) (inputs.drop 4) 1 "A" rfl
    (by simp [inputs]) List.mem_cons_self
  obtain ⟨_, hlast⟩ := hafter (inputs.take 4) (.unsubscribe 2 "B") (inputs.drop 5) 2 "B" rfl
    (by simp [inputs]) List.mem_cons_self
  obtain ⟨k', hk', _⟩ := (hnext [.unsubscribe 2 "B"] 3 [.shutdown 4, .subscribe 5 "B"] rfl (by simp)).1
    (by simp [Input.isStop])
  exact ⟨h, ⟨before, c, k, ho⟩,
    hnever (inputs.take 5) 3 "A" (inputs.drop 6) rfl (.inr ⟨_, mem_answers.mp hfailed⟩),
    hgone 0 (by simp [inputs]), ⟨k', hk'⟩,
    (hlast [.subscribe 3 "A", .shutdown 4] 5 [] rfl (by simp)).2 (by simp [Input.isStop])⟩

/-- After a stop the next subscribe call for a channel opens no connection. -/
theorem no_connection_after_shutdown :
    let before : List Input :=
      [.subscribe 0 "A", .event 0 (.message Envelope.init.encode), .unsubscribe 1 "A"]
    let rest : List Input := [.shutdown 2, .subscribe 3 "A"]
    (calls (before ++ .event 0 (.closed 1000) :: rest)).Nodup ∧
      .answered 1 (.ok ()) ∈ ((({} : Table).after before).step (.event 0 (.closed 1000))).2 ∧
      ¬∃ k, Opens (before ++ [.event 0 (.closed 1000), .shutdown 2]) 3 "A" k := by
  refine ⟨by decide, List.mem_cons_self, fun ⟨k, hk⟩ => ?_⟩
  have hout : Output.opened k "A" ∈ [Output.answered 3 (.error .sessionClosed), .released 3] := hk
  simp at hout

end RobotBridge.Session.Table
