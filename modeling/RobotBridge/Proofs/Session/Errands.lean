import RobotBridge.Proofs.Session.EndToEnd
import RobotBridge.Proofs.Session.Record

/-! Calls that only make requests and publish: each goes through its script one exchange after the other,
each on a line of its own, and never has another line. -/
namespace RobotBridge

inductive Script.OneShots {α : Type} : Script α → Prop
  | finish {a} : OneShots (.finish a)
  | step {script x next} : script.oneShot? = some (x, next) → (∀ outcome, OneShots (next outcome)) → OneShots script

theorem Script.OneShots.input?_eq_none {α : Type} {script : Script α} (h : script.OneShots) (id : Nat) :
    script.input? id = none := by
  cases h with
  | finish => rfl
  | step hx => cases script <;> simp [oneShot?] at hx <;> rfl

namespace Session
open Table (Output)

variable {α : Type} {timeout : Duration} {s s' : Session α} {r : Record α} {log : Log α} {notes : List (Note α)}
  {m : Move} {effects : List (Effect α)} {id : Nat}

@[simp] def Note.lineFor? (id : Nat) : Note α → Option Nat
  | .connected n owner _ => if owner = .call id then some n else none
  | _ => none

def linesOf (id : Nat) (log : Log α) : List Nat := pick (Note.lineFor? id) log

theorem linesOf_append (id : Nat) (log : Log α) (t : Nat) (notes : List (Note α)) :
    linesOf id (log ++ stamp t notes) = linesOf id log ++ notes.filterMap (Note.lineFor? id) := pick_append ..

theorem Logged.commands_of_mem_linesOf (h : Logged timeout s log) {n : Nat} (hn : n ∈ linesOf id log) :
    ∃ p, s.lines[n]? = some (.call id, p) ∧ (p.attached → p.commands = queued n log) := by
  obtain ⟨⟨t, note⟩, hm, hnote⟩ := List.mem_filterMap.mp hn
  cases note with
  | connected m owner c =>
    obtain ⟨rfl, rfl⟩ : owner = .call id ∧ m = n := by simpa using hnote
    exact h.commands_of_connected hm
  | began | passed | expired | returned => contradiction

/-! ### Whose lines a move opens -/

private theorem lineFor?_exchangeNotes (id n : Nat) (actions : List Exchange.Action) (after : Option (Stage α)) :
    (exchangeNotes n actions after).filterMap (Note.lineFor? id) = [] := by
  refine List.filterMap_eq_nil_iff.mpr fun note hm => ?_
  rcases List.mem_append.mp hm with hm | hm
  · obtain ⟨c, -, rfl⟩ := List.mem_map.mp hm
    rfl
  · split at hm
    · rw [List.mem_singleton.mp hm]
      rfl
    · exact absurd hm List.not_mem_nil

private theorem lineFor?_outputNotes (s : Session α) (id : Nat) (outputs : List Output) :
    (s.outputNotes outputs).filterMap (Note.lineFor? id) = [] := by
  induction outputs generalizing s with
  | nil => rfl
  | cons output outputs ih =>
    have hone : (s.outputNote output).filterMap (Note.lineFor? id) = [] := by
      cases output with
      | command k c => cases h : s.lineOf? k <;> simp [outputNote, h]
      | opened => simp [outputNote]
      | handled | answered | listed | stopped | released | dropped => rfl
    rw [outputNotes, List.filterMap_append, hone, ih]
    rfl

/-- A line is opened for a call only when its script goes on. -/
private theorem lineFor?_notes (s s' : Session α) (hm : m ≠ .resume id) :
    (s.notes m s').filterMap (Note.lineFor? id) = [] := by
  unfold notes
  split
  · next j =>
    have hj : j ≠ id := fun hj => hm (hj ▸ rfl)
    split
    · split
      · simp [hj]
      · rfl
    · rfl
  · split
    · split
      · rw [List.filterMap_cons_none rfl, lineFor?_exchangeNotes]
      · exact lineFor?_exchangeNotes ..
    · rfl
  · split
    · rw [List.filterMap_cons_none rfl, lineFor?_exchangeNotes]
    · rfl
  · split <;> rfl
  · split
    · exact lineFor?_outputNotes ..
    · rfl
  · split
    · exact lineFor?_outputNotes ..
    · rfl
  · split
    · exact lineFor?_outputNotes ..
    · rfl
  · rfl

theorem linesOf_act (s : Session α) (a : Act α) (id : Nat) (log : Log α) (t : Nat) :
    linesOf id (log ++ stamp t (s.actNotes a)) = linesOf id log := by
  rw [linesOf_append, List.filterMap_eq_nil_iff.mpr fun note hm => ?_, List.append_nil]
  obtain ⟨_, rfl | ⟨_, rfl⟩⟩ := (act_befalls s a).of_mem hm <;> rfl

theorem linesOf_move (s s' : Session α) (hm : m ≠ .resume id) (log : Log α) (t : Nat) :
    linesOf id (log ++ stamp t (s.notes m s')) = linesOf id log := by
  rw [linesOf_append, lineFor?_notes s s' hm, List.append_nil]

/-! ### From script to script -/

/-- A call has gone from one script to another over some lines, with one exchange on each. -/
inductive Went (log : Log α) (id : Nat) (script : Script α) : List Nat → Script α → Prop
  | none : Went log id script [] script
  | snoc {ns n start current x next outcome} : Went log id script ns current →
      (start, .began n id current) ∈ log → current.oneShot? = some (x, next) →
      returned n log = [next outcome] → Went log id script (ns ++ [n]) (next outcome)

inductive Journey (s : Session α) (log : Log α) (id : Nat) (script : Script α) : Prop
  | ready {current} : Went log id script (linesOf id log) current → current.OneShots →
      s.stage? id = some (.ready current) → Journey s log id script
  | abroad {ns current n start x y deadline next} : Went log id script ns current →
      (start, .began n id current) ∈ log → current.oneShot? = some (x, next) →
      (∀ outcome, (next outcome).OneShots) → linesOf id log = ns ++ [n] →
      s.stage? id = some (.exchanging n y deadline next) → Journey s log id script
  | home {a} : Went log id script (linesOf id log) (.finish a) → s.stage? id = some (.done a) →
      Journey s log id script

variable {n : Nat} {script current : Script α} {ns : List Nat}

/-- A one-shot call goes on once. -/
theorem OneShot.returned_length {v : View α} {start : Nat} {x : Exchange} {next : Exchange.Outcome → Script α}
    (h : OneShot timeout v log start n id x next) : (returned n log).length ≤ 1 := by
  cases h with
  | running _ _ _ hret => simp [hret]
  | decided _ _ _ _ _ hret | late _ _ _ hret => simp [hret]

theorem Logged.returned_length (h : Logged timeout s log) {start : Nat}
    (hb : (start, .began n id script) ∈ log) : (returned n log).length ≤ 1 := by
  obtain ⟨x, next, hs⟩ := h.trace.oneShot?_of_began hb
  exact (h.trace.oneShot hb hs).returned_length

/-- What a call went on with is not taken back. -/
theorem Went.append (h : Went log id script ns current) {more : Log α} (hl : Logged timeout s (log ++ more)) :
    Went (log ++ more) id script ns current := by
  induction h with
  | none => exact .none
  | @snoc ns n start current x next outcome _ hb hs hret ih =>
    have hb' : (start, .began n id current) ∈ log ++ more := List.mem_append_left _ hb
    refine ih.snoc hb' hs ?_
    have hlen := hl.returned_length hb'
    have happ : returned n (log ++ more) = returned n log ++ returned n more := List.filterMap_append
    rw [happ, hret, List.length_append, List.length_singleton] at hlen
    rw [happ, hret, List.length_eq_zero_iff.mp (Nat.le_zero.mp (Nat.le_of_add_le_add_left hlen)), List.append_nil]

/-- Nothing is done on a line of the call, and the call stays where it is. -/
private theorem Journey.frame (h : Journey s log id script) {more : Log α} (hl : Logged timeout s' (log ++ more))
    (hlines : linesOf id (log ++ more) = linesOf id log) (hstage : s'.stage? id = s.stage? id) :
    Journey s' (log ++ more) id script := by
  cases h with
  | ready hw ho hs => exact .ready (hlines ▸ hw.append hl) ho (hstage.trans hs)
  | abroad hw hb hx ho hn hs =>
    exact .abroad (hw.append hl) (List.mem_append_left _ hb) hx ho (hlines.trans hn) (hstage.trans hs)
  | home hw hs => exact .home (hlines ▸ hw.append hl) (hstage.trans hs)

theorem Journey.not_isAsking (h : Journey s log id script) {stage : Stage α} (hs : s.stage? id = some stage) :
    stage.isAsking = false := by
  cases h with
  | ready _ _ h | abroad _ _ _ _ _ h | home _ h =>
    rw [h] at hs
    obtain rfl := Option.some.inj hs
    rfl

/-- The script of the call goes on. -/
private theorem Journey.resumes (h : Journey s log id script) {c : CallState α} (hc : s.call? id = some c)
    (hs : c.stage = .ready current) (hc' : s'.call? id = some { c with stage := current.resumed s })
    (hl : Logged timeout s' (log ++ stamp s.clock (s.notes (.resume id) s'))) :
    Journey s' (log ++ stamp s.clock (s.notes (.resume id) s')) id script := by
  have hstage : s.stage? id = some (.ready current) := by rw [stage?_of_call? hc, hs]
  have hstage' : s'.stage? id = some (current.resumed s) := stage?_of_call? hc'
  cases h with
  | @ready current' hw ho hready =>
    obtain rfl : current' = current := Stage.ready.inj (Option.some.inj (hready.symm.trans hstage))
    cases ho with
    | @finish a =>
      have hnotes : s.notes (.resume id) s' = [] := by simp [notes, hready, Script.oneShot?]
      rw [hnotes, stamp, List.map_nil, List.append_nil] at hl ⊢
      exact .home hw hstage'
    | @step _ x next hx ho =>
      have hnotes : s.notes (.resume id) s' =
          [.connected s.lines.length (.call id) x.channel, .began s.lines.length id current'] := by
        simp only [notes, hready, hx]
      have hresumed : current'.resumed s =
          .exchanging s.lines.length x (s.clock + s.timeout.nanoseconds) next := by
        cases current' <;> simp [Script.oneShot?] at hx <;> (obtain ⟨rfl, rfl⟩ := hx; rfl)
      rw [hresumed] at hstage'
      have hbegan : (s.clock, .began s.lines.length id current') ∈
          log ++ stamp s.clock (s.notes (.resume id) s') := by
        rw [hnotes]
        exact List.mem_append_right _ (mem_stamp.mpr ⟨rfl, by simp⟩)
      refine .abroad (hw.append hl) hbegan hx ho ?_ hstage'
      rw [linesOf_append, hnotes]
      simp
  | abroad _ _ _ _ _ h | home _ h => cases h.symm.trans hstage

private theorem returned_mem_notes {x : Exchange} {deadline : Nat} {next : Exchange.Outcome → Script α}
    (hm : m = .take id ∨ m = .expire id) (hs : s.stage? id = some (.exchanging n x deadline next))
    (hs' : s'.stage? id = some (.ready current)) : .returned n current ∈ s.notes m s' := by
  rcases hm with rfl | rfl
  · simp only [notes, hs, hs', exchangeNotes]
    split <;> simp
  · simp [notes, hs, hs', exchangeNotes]

/-- The exchange of the call goes on or ends. -/
private theorem Journey.exchanges (h : Journey s log id script) {c : CallState α} {stage : Stage α} {x : Exchange}
    {deadline : Nat} {next : Exchange.Outcome → Script α} (hc : s.call? id = some c)
    (hs : c.stage = .exchanging n x deadline next) (hc' : s'.call? id = some { c with stage })
    (hm : m = .take id ∨ m = .expire id)
    (hstage : (∃ y, stage = .exchanging n y deadline next) ∨ ∃ outcome, stage = .ready (next outcome))
    (hl : Logged timeout s' (log ++ stamp s.clock (s.notes m s'))) :
    Journey s' (log ++ stamp s.clock (s.notes m s')) id script := by
  have hrun : s.stage? id = some (.exchanging n x deadline next) := by rw [stage?_of_call? hc, hs]
  have hafter : s'.stage? id = some stage := stage?_of_call? hc'
  have hmove : m ≠ .resume id := by
    rintro rfl
    rcases hm with hm | hm <;> cases hm
  have hlines := linesOf_move s s' hmove log s.clock
  cases h with
  | ready _ _ h | home _ h => cases h.symm.trans hrun
  | abroad hw hb hx ho hn habroad =>
    obtain ⟨rfl, rfl, rfl, rfl⟩ := Stage.exchanging.inj (Option.some.inj (hrun.symm.trans habroad))
    have hb' := List.mem_append_left (stamp s.clock (s.notes m s')) hb
    rcases hstage with ⟨y, rfl⟩ | ⟨outcome, rfl⟩
    · exact .abroad (hw.append hl) hb' hx ho (hlines.trans hn) hafter
    · have hmem : next outcome ∈ returned n (log ++ stamp s.clock (s.notes m s')) :=
        List.mem_filterMap.mpr ⟨_, List.mem_append_right _
          (mem_stamp.mpr ⟨rfl, returned_mem_notes hm hrun hafter⟩), by simp⟩
      have hret : returned n (log ++ stamp s.clock (s.notes m s')) = [next outcome] := by
        obtain ⟨only, hone⟩ := List.length_eq_one_iff.mp
          (Nat.le_antisymm (hl.returned_length hb') (List.length_pos_of_mem hmem))
        rw [hone] at hmem ⊢
        rw [List.mem_singleton.mp hmem]
      refine .ready ?_ (ho outcome) hafter
      rw [hlines, hn]
      exact (hw.append hl).snoc hb' hx hret

/-- No line is opened for a call before it is made. -/
theorem Recorded.linesOf_unmade (h : Recorded timeout s r) (hid : s.call? id = none) : linesOf id r.log = [] := by
  induction h with
  | start => rfl
  | @act s r a h ih =>
    exact (linesOf_act ..).trans (ih (call?_of_act hid))
  | @move s s' r m effects h hm ih =>
    have hnone := (call?_perform hm id).mp hid
    refine (linesOf_move s s' ?_ ..).trans (ih hnone)
    rintro rfl
    simp [perform, hnone] at hm

theorem Recorded.journey (h : Recorded timeout s r) (hid : r.scripts[id]? = some script) (ho : script.OneShots) :
    Journey s r.log id script := by
  induction h with
  | start => simp at hid
  | @act s r a h ih =>
    have hlines := linesOf_act s a id r.log s.clock
    rcases h.call?_act a hid with ⟨hold, hcall⟩ | ⟨hnone, hcall⟩
    · exact (ih hold).frame (h.act a).logged hlines (by rw [stage?, stage?, hcall])
    · refine .ready ?_ ho (stage?_of_call? hcall)
      rw [Record.act, hlines, h.linesOf_unmade hnone]
      exact .none
  | @move s s' r m effects h hm ih =>
    have hj := ih hid
    have hl := (h.move hm).logged
    rcases perform_conducts hm id with ⟨hnone, -⟩ | ⟨c, c', hc, hc', hconduct⟩
    · rw [call?_eq_none, ← h.scripts_length] at hnone
      rw [show (r.move s m s' effects).scripts = r.scripts from rfl, List.getElem?_eq_none hnone] at hid
      contradiction
    have hstage := stage?_of_call? hc
    have hstage' := stage?_of_call? hc'
    have hsame (hmove : m ≠ .resume id) (heq : c'.stage = c.stage) : Journey s' (r.move s m s' effects).log id script :=
      hj.frame hl (linesOf_move s s' hmove ..) (by rw [hstage', heq, hstage])
    generalize m.texts id effects = texts at hconduct
    cases hconduct with
    | apart hmove => exact hsame (by rintro rfl; exact hmove rfl) rfl
    | told hmove =>
      refine hsame (by rintro rfl; cases hmove) ?_
      rw [CallState.foldl_tell]
      exact Stage.foldl_tell_of_not_asking (hj.not_isAsking hstage) _
    | resumes hs => exact hj.resumes hc hs hc' hl
    | exchanges hs hmove hafter => exact hj.exchanges hc hs hc' hmove hafter hl
    | skips hs | prints hs | ends hs =>
      rw [hs] at hstage
      cases hj with
      | ready _ _ h | abroad _ _ _ _ _ h | home _ h => cases h.symm.trans hstage

/-! ### What the journey is made of -/

/-- A call of exchanges asks nothing of the table. -/
theorem Recorded.asked_eq_nil (h : Recorded timeout s r) (hid : r.scripts[id]? = some script) (ho : script.OneShots) :
    asked s r id = [] := by
  induction h with
  | start => rfl
  | @act s r a h ih =>
    rw [asked_act]
    rcases h.call?_act a hid with ⟨hold, -⟩ | ⟨hnone, -⟩
    · exact ih hold
    · exact (h.unmade hnone).1
  | @move s s' r m effects h hm ih =>
    rw [asked_move hm, ih hid, List.nil_append]
    by_cases hmove : m = .resume id
    · subst hmove
      cases h.journey hid ho with
      | ready _ hcurrent hs => rw [issued?_resume hs, hcurrent.input?_eq_none id]; rfl
      | abroad _ _ _ _ _ hs | home _ hs => rw [issued?, hs]; rfl
    · exact own_issued_of_ne s hmove

/-- A line is opened for a call as its script goes on, before anything else is done on the line. -/
private theorem notes_of_connected {mid rest : List (Note α)} {c : String}
    (hn : s.notes m s' = mid ++ .connected n (.call id) c :: rest) :
    mid = [] ∧ ∃ current x next, s.stage? id = some (.ready current) ∧ current.oneShot? = some (x, next) ∧ x.channel = c := by
  have hmem : n ∈ (s.notes m s').filterMap (Note.lineFor? id) := by
    rw [hn]
    simp
  have hmove : m = .resume id := by
    by_contra hne
    rw [lineFor?_notes s s' hne] at hmem
    contradiction
  subst hmove
  unfold notes at hn
  dsimp only at hn
  split at hn
  · next current hs =>
    split at hn
    · next x next hx =>
      cases mid with
      | nil =>
        obtain ⟨heq, -⟩ := List.cons.inj hn
        exact ⟨rfl, current, x, next, hs, hx, (Note.connected.inj heq).2.2⟩
      | cons first mid =>
        obtain ⟨-, hrest⟩ := List.cons.inj hn
        have hbegan : Note.connected n (.call id) c ∈ [.began s.lines.length id current] :=
          hrest ▸ List.mem_append_right _ List.mem_cons_self
        cases List.mem_singleton.mp hbegan
    · exact absurd hn.symm (by simp)
  · exact absurd hn.symm (by simp)

/-- When a line is opened for a call, its script so far has made an exchange on each of its lines before. -/
theorem Recorded.of_connected (h : Recorded timeout s r) {before later : Log α} {t : Nat} {c : String}
    (hl : r.log = before ++ (t, .connected n (.call id) c) :: later) :
    ∃ s₀ r₀ current x next, Recorded timeout s₀ r₀ ∧ r₀.log = before ∧ r₀.scripts <+: r.scripts ∧
      s₀.stage? id = some (.ready current) ∧ current.oneShot? = some (x, next) ∧ x.channel = c := by
  induction h generalizing later with
  | start => exact absurd hl (by simp)
  | @act s r a h ih =>
    rcases split_append hl with ⟨mid, hb⟩ | ⟨mid, -, hn⟩
    · obtain ⟨s₀, r₀, current, x, next, h₀, hlog, hscripts, hrest⟩ := ih hb
      exact ⟨s₀, r₀, current, x, next, h₀, hlog, hscripts.trans (List.prefix_append ..), hrest⟩
    · have hmem : (t, .connected n (.call id) c) ∈ stamp s.clock (s.actNotes a) :=
        hn ▸ List.mem_append_right _ List.mem_cons_self
      obtain ⟨_, heq | ⟨_, heq⟩⟩ := (act_befalls s a).of_mem (mem_stamp.mp hmem).2 <;> cases heq
  | @move s s' r m effects h hm ih =>
    rcases split_append hl with ⟨mid, hb⟩ | ⟨mid, hb, hn⟩
    · exact ih hb
    · obtain ⟨xs, ys, hnotes, rfl, hys⟩ := List.map_eq_append_iff.mp hn
      obtain ⟨note, rest, rfl, hnote, -⟩ := List.map_eq_cons_iff.mp hys
      obtain rfl := (Prod.mk.inj hnote).2
      obtain ⟨rfl, current, x, next, hs⟩ := notes_of_connected hnotes
      exact ⟨s, r, current, x, next, h, by rw [hb, List.map_nil, List.append_nil], List.prefix_rfl, hs⟩

end Session

end RobotBridge
