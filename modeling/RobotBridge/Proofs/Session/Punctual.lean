import RobotBridge.Proofs.Session.OneShot
import RobotBridge.Proofs.Session.Rest

/-! Time: in a session that comes to rest before anything else comes from outside, a one-shot call takes
nothing once its time is up. -/
namespace RobotBridge.Session

variable {α : Type}

/-- Runs in which nothing comes from outside until the session has come to rest. -/
inductive Prompt (timeout : Duration) : Session α → Log α → Prop
  | start : Prompt timeout { timeout } []
  | act {s log} (a : Act α) : Prompt timeout s log → s.isSettled →
      Prompt timeout (s.act a) (log ++ stamp s.clock (s.actNotes a))
  | move {s s' log m effects} : Prompt timeout s log → s.perform m = some (s', effects) →
      Prompt timeout s' (log ++ stamp s.clock (s.notes m s'))

variable {timeout : Duration} {s : Session α} {v v' : View α} {log : Log α} {notes : List (Note α)}
  {start n id t : Nat} {x : Exchange} {script : Script α}

theorem Prompt.logged (h : Prompt timeout s log) : Logged timeout s log := by
  induction h with
  | start => exact .start
  | act a _ _ ih => exact ih.act a
  | move _ hm ih => exact ih.move hm

def OnTime (v : View α) : Prop :=
  ∀ id errand o (p : Line), v.errands id = some errand → v.lines[errand.line]? = some (o, p) →
    v.clock < errand.deadline ∨ p.hasEvent = false

theorem hasEvent_foldl (p : Line) (cs : List Command) : (cs.foldl Line.queue p).hasEvent = p.hasEvent := by
  obtain ⟨_, h⟩ := Line.foldl_queue_frame p cs
  rw [h]
  rfl

private theorem OnTime.befalls (hrest : ∀ id errand o (p : Line), v.errands id = some errand →
      v.lines[errand.line]? = some (o, p) → p.hasEvent = false ∧ v.clock < errand.deadline)
    (h : Befalls v notes v') : OnTime v' := by
  intro id errand o p he hp
  cases h with
  | passes => exact .inr (hrest id errand o p he hp).1
  | emits e hn | vanishes hn =>
    rcases getElem?_set_cases hn hp with ⟨hl, rfl, -⟩ | ⟨-, hp⟩
    · exact .inl (hrest id errand _ _ he (hl ▸ hn)).2
    · exact .inl (hrest id errand o p he hp).2

/-- Two calls are not on the same line. -/
private theorem Wired.line_ne (w : Wired timeout v log) {other : Nat} (hne : other ≠ id) {errand old : Errand α}
    (he : v.errands id = some errand) (hold : v.errands other = some old) : old.line ≠ errand.line := by
  obtain ⟨p, hp, -⟩ := w.errands id errand he
  exact fun hl => hne (w.eq_of_runs (ownerOf?_eq_some.mpr ⟨p, hp⟩) hold hl)

private theorem OnTime.carryOn (h : OnTime v) (w : Wired timeout v log) {errand : Errand α} {o : Owner}
    {p q : Line} {r : Exchange × List Exchange.Action} (he : v.errands id = some errand)
    (hp : v.lines[errand.line]? = some (o, p)) (hq : v.clock < errand.deadline ∨ q.hasEvent = false) :
    OnTime (v.carryOn id o errand q r) := by
  intro other old o' p' hold hp'
  have helse (hne : other ≠ id) {q' : Line} (hold : v.errands other = some old)
      (hp' : (v.lines.set errand.line (o, q'))[old.line]? = some (o', p')) :
      v.clock < old.deadline ∨ p'.hasEvent = false := by
    rw [List.getElem?_set_ne (w.line_ne hne he hold).symm] at hp'
    exact h other old o' p' hold hp'
  unfold View.carryOn at hold hp' ⊢
  cases hout : (Exchange.outcomes r.2).getLast? with
  | some outcome =>
    simp only [hout, Function.update_apply] at hold hp' ⊢
    split at hold
    · contradiction
    · next hne => exact helse hne hold hp'
  | none =>
    simp only [hout, Function.update_apply] at hold hp' ⊢
    split at hold
    · obtain rfl := Option.some.inj hold
      rcases getElem?_set_cases hp hp' with ⟨-, -, rfl⟩ | ⟨hne, -⟩
      · rwa [hasEvent_foldl]
      · exact absurd rfl hne
    · next hne => exact helse hne hold hp'

private theorem OnTime.occurs (h : OnTime v) (w : Wired timeout v log) (hs : Occurs v notes v') : OnTime v' := by
  have htable {m k : Nat} {p q : Line} (hp : v.lines[m]? = some (.table k, p)) {other : Nat}
      {errand : Errand α} {o : Owner} {p' : Line} (he : v.errands other = some errand)
      (hp' : (v.lines.set m (.table k, q))[errand.line]? = some (o, p')) :
      v.clock < errand.deadline ∨ p'.hasEvent = false := by
    rcases getElem?_set_cases hp hp' with ⟨hl, -, -⟩ | ⟨-, hp'⟩
    · cases (w.of_errand he (hl ▸ hp)).1
    · exact h other errand o p' he hp'
  have hopen {o : Owner} {other : Nat} {errand : Errand α} {o' : Owner} {p' : Line}
      (he : v.errands other = some errand)
      (hp' : (v.lines ++ [(o, ({} : Line))])[errand.line]? = some (o', p')) :
      v.clock < errand.deadline ∨ p'.hasEvent = false := by
    rcases getElem?_snoc_cases hp' with ⟨-, -, rfl⟩ | hp'
    · exact .inr rfl
    · exact h other errand o' p' he hp'
  cases hs with
  | idle => exact h
  | @begins id _ _ _ hno hscript =>
    intro other errand o p he hp
    simp only [Function.update_apply] at he
    split at he
    · obtain rfl := Option.some.inj he
      rcases getElem?_snoc_cases hp with ⟨-, -, rfl⟩ | hp
      · exact .inr rfl
      · exact absurd (List.getElem?_eq_some_iff.mp hp).1 (Nat.lt_irrefl _)
    · exact hopen he hp
  | @feeds id errand o p q e he hp hn =>
    refine h.carryOn w he hp (.inl ?_)
    rcases h id errand o p he hp with hlt | hidle
    · exact hlt
    · simp [Line.hasEvent_of_nextEvent (w.of_errand he hp).2 hn] at hidle
  | expires he hp _ hidle => exact h.carryOn w he hp (.inr hidle)
  | @falls id errand o p he hp ht =>
    intro other old o' p' hold hp'
    simp only [Function.update_apply] at hold
    split at hold
    · contradiction
    · next hne =>
      rw [List.getElem?_set_ne (w.line_ne hne he hold).symm] at hp'
      exact h other old o' p' hold hp'
  | forwards _ hp => exact fun _ _ _ _ he hp' => htable hp he hp'
  | deafens _ hp => exact fun _ _ _ _ he hp' => htable hp he hp'
  | subscribes => exact fun _ _ _ _ he hp' => hopen he hp'
  | handles _ _ _ hcarried =>
    intro other errand o p' he hp'
    obtain ⟨p, hp, hkeep, -⟩ := hcarried.back hp'
    rw [hkeep]
    exact h other errand o p he hp

private theorem Prompt.onTime (h : Prompt timeout s log) : OnTime s.view := by
  induction h with
  | start => exact fun _ _ _ _ he => by simp [view, errand?, call?] at he
  | act a _ hr ih =>
    exact OnTime.befalls (fun id errand o p he hp => rest_errand hr he hp) (act_befalls _ a)
  | move h hm ih => exact ih.occurs h.logged.trace.wired (h.logged.occurs hm)

private theorem Occurs.of_yield (h : Occurs v notes v') (ho : ownerOf? v.lines n = some (.call id))
    (w : Wired timeout v log) {e : Event} (hm : .passed n (.yield e) ∈ notes) :
    ∃ errand p q, v.runs id n errand ∧ v.lines[n]? = some (.call id, p) ∧ p.nextEvent = (q, .ready e) := by
  cases h with
  | idle | begins | falls | subscribes => simp at hm
  | @feeds other errand o p q e' he hp hn =>
    rcases List.mem_cons.mp hm with hm | hm
    · obtain ⟨rfl, ⟨⟩⟩ := Note.passed.inj hm
      obtain rfl := w.eq_of_runs ho he rfl
      obtain rfl : o = .call other := Option.some.inj ((ownerOf?_eq_some.mpr ⟨p, hp⟩).symm.trans ho)
      exact ⟨errand, p, q, ⟨he, rfl⟩, hp, hn⟩
    · rcases Errand.mem_notes hm with ⟨_, h⟩ | ⟨_, h⟩ <;> cases h
  | expires =>
    rcases List.mem_cons.mp hm with hm | hm
    · contradiction
    · rcases Errand.mem_notes hm with ⟨_, h⟩ | ⟨_, h⟩ <;> cases h
  | forwards _ hp | deafens _ hp =>
    obtain ⟨rfl, -⟩ := Note.passed.inj (List.mem_singleton.mp hm)
    cases (ownerOf?_eq_some.mpr ⟨_, hp⟩).symm.trans ho
  | handles _ _ _ hcarried =>
    obtain ⟨_, _, _, heq, -⟩ := hcarried.onlyQueue _ hm
    cases heq

/-- What a call takes it takes before its deadline. -/
theorem Prompt.in_time {next : Exchange.Outcome → Script α} (h : Prompt timeout s log)
    (hb : (start, .began n id script) ∈ log) (hs : script.oneShot? = some (x, next)) {e : Event}
    (hy : (t, .passed n (.yield e)) ∈ log) : t < start + timeout.nanoseconds := by
  induction h with
  | start => exact absurd hb List.not_mem_nil
  | @act s log a h hr ih =>
    have hact := act_befalls s a
    rcases List.mem_append.mp hb with hb | hb
    · rcases List.mem_append.mp hy with hy | hy
      · exact ih hb hy
      · obtain ⟨_, h | ⟨_, h⟩⟩ := hact.of_mem (mem_stamp.mp hy).2 <;> cases h
    · obtain ⟨_, h | ⟨_, h⟩⟩ := hact.of_mem (mem_stamp.mp hb).2 <;> cases h
  | @move s s' log m effects h hm ih =>
    have ht := h.logged.trace
    have hoccurs := h.logged.occurs hm
    rcases List.mem_append.mp hb with hb | hb
    · rcases List.mem_append.mp hy with hy | hy
      · exact ih hb hy
      · obtain ⟨rfl, hnote⟩ := mem_stamp.mp hy
        obtain ⟨errand, p, q, hruns, hp, hn⟩ := hoccurs.of_yield (ht.wired.of_began hb).1 ht.wired hnote
        obtain ⟨rfl, -⟩ := (ht.oneShot hb hs).eq_of_runs hruns
        have hlisten := (ht.wired.of_errand hruns.1 hp).2
        rcases h.onTime id _ _ _ hruns.1 hp with hlt | hidle
        · exact hlt
        · simp [Line.hasEvent_of_nextEvent hlisten hn] at hidle
    · obtain ⟨rfl, -, hnotes⟩ := hoccurs.of_began (mem_stamp.mp hb).2 hs
      rcases List.mem_append.mp hy with hy | hy
      · exact absurd (ht.wired.within _ hy) (Nat.lt_irrefl _)
      · have hnote := (mem_stamp.mp hy).2
        rw [hnotes] at hnote
        simp at hnote

end RobotBridge.Session
