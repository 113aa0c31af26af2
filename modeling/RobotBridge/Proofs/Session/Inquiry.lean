import RobotBridge.Proofs.Session.Record

/-! Calls that ask the subscription table for one thing and return what it answers: that they ask no more than
once, and that what they return was said to them. -/
namespace RobotBridge

/-- A script that subscribes or unsubscribes, by what it asks for, and then returns the answer. -/
inductive Script.Inquires {α : Type} (wrap : Except CallError Unit → α) :
    Script α → (Nat → Session.Table.Input) → Prop
  | subscribe (c : String) :
    Inquires wrap (.subscribe c fun result => .finish (wrap result)) fun id => .subscribe id c
  | unsubscribe (c : String) :
    Inquires wrap (.unsubscribe c fun result => .finish (wrap result)) fun id => .unsubscribe id c

namespace Session
open Table (Input Output answersTo)

variable {α : Type} {timeout : Duration} {s s' : Session α} {r : Record α} {id : Nat}
  {wrap : Except CallError Unit → α} {script : Script α} {input : Nat → Input} {said : List Output}

inductive Inquiry (wrap : Except CallError Unit → α) (script : Script α) (input : Input) (id : Nat)
    (said : List Output) : Stage α → List Input → Prop
  | made : Inquiry wrap script input id said (.ready script) []
  | asks : Inquiry wrap script input id said (.waiting fun result => .finish (wrap result)) [input]
  | told {result} : .answered id result ∈ said →
      Inquiry wrap script input id said (.ready (.finish (wrap result))) [input]
  | done {result} : .answered id result ∈ said → Inquiry wrap script input id said (.done (wrap result)) [input]

/-- What else is said changes nothing for a call that does not wait. -/
theorem Inquiry.mono {stage : Stage α} {requests : List Input} {i : Input}
    (h : Inquiry wrap script i id said stage requests) (more : List Output) :
    Inquiry wrap script i id (said ++ more) stage requests := by
  cases h with
  | made => exact .made
  | asks => exact .asks
  | told hm => exact .told (List.mem_append_left _ hm)
  | done hm => exact .done (List.mem_append_left _ hm)

/-- The table says something. -/
theorem Inquiry.hears {stage : Stage α} {requests : List Input} (hs : script.Inquires wrap input)
    (h : Inquiry wrap script (input id) id said stage requests) (out : List Output) :
    Inquiry wrap script (input id) id (said ++ out) (out.foldl (Stage.tell id) stage) requests := by
  have hidle (hstage : stage.isAsking = false) :
      Inquiry wrap script (input id) id (said ++ out) (out.foldl (Stage.tell id) stage) requests := by
    rw [Stage.foldl_tell_of_not_asking hstage]
    exact h.mono out
  cases h with
  | made => cases hs <;> exact hidle rfl
  | told | done => exact hidle rfl
  | asks =>
    rw [Stage.foldl_tell_waiting]
    cases hanswers : answersTo id out with
    | nil => exact .asks
    | cons answer answers =>
      have hm : answer ∈ answersTo id out := hanswers ▸ List.mem_cons_self
      exact .told (List.mem_append_right _ (Table.mem_answersTo.mp hm))

/-- The script goes on. -/
theorem Inquiry.resumes {current : Script α} {requests : List Input} (hs : script.Inquires wrap input)
    (h : Inquiry wrap script (input id) id said (.ready current) requests) :
    Inquiry wrap script (input id) id said (current.resumed s) (requests ++ own id (current.input? id).toList) := by
  cases h with
  | made =>
    cases hs with
    | subscribe | unsubscribe => simpa [Script.resumed, Script.input?, own] using Inquiry.asks
  | told hm => simpa [Script.resumed, Script.input?, own] using Inquiry.done hm

/-- Whatever the schedule, such a call stands somewhere. -/
theorem Recorded.inquiry (h : Recorded timeout s r) (hid : r.scripts[id]? = some script)
    (hs : script.Inquires wrap input) : ∃ c, s.call? id = some c ∧
      Inquiry wrap script (input id) id (({} : Table).said r.history.inputs) c.stage (asked s r id) := by
  induction h with
  | start => simp at hid
  | @act s r a h ih =>
    rw [asked_act]
    rcases h.call?_act a hid with ⟨hold, hsame⟩ | ⟨hnone, hmade⟩
    · rw [hsame]
      exact ih hold
    · rw [(h.unmade hnone).1]
      exact ⟨_, hmade, .made⟩
  | @move s s' r m effects h hm ih =>
    obtain ⟨c, hc, hphase⟩ := ih hid
    obtain ⟨c', texts, hc', hconduct⟩ : ∃ c' texts, s'.call? id = some c' ∧ Conduct s id c m c' texts := by
      rcases perform_conducts hm id with ⟨hnone, -, -⟩ | ⟨c₁, c', hc₁, hc', hconduct⟩
      · rw [hc] at hnone
        contradiction
      · cases hc.symm.trans hc₁
        exact ⟨c', _, hc', hconduct⟩
    have hstage : s.stage? id = some c.stage := stage?_of_call? hc
    refine ⟨c', hc', ?_⟩
    rw [asked_move hm, h.said_move]
    have hother (hne : m ≠ .resume id) : asked s r id ++ own id (s.issued? m).toList = asked s r id := by
      rw [own_issued_of_ne s hne, List.append_nil]
    -- A call that neither runs an exchange nor streams only hears the table and goes on with its script.
    cases hconduct with
    | apart hne _ =>
      rw [hother (by rintro rfl; exact hne rfl)]
      exact hphase.mono _
    | told hnone hi =>
      rw [hother (by rintro rfl; contradiction), outputsOf_eq hi, CallState.foldl_tell]
      exact hphase.hears hs _
    | resumes hready =>
      rw [hready] at hphase hstage
      rw [issued?_resume hstage]
      exact (hphase.resumes hs).mono _
    | exchanges hrun | skips hrun | prints hrun | ends hrun =>
      rw [hrun] at hphase
      cases hphase

/-- Such a call asks at most once, and only for what its script says. -/
theorem Recorded.asks_once (h : Recorded timeout s r) (hid : r.scripts[id]? = some script)
    (hs : script.Inquires wrap input) : asked s r id <+: [input id] := by
  obtain ⟨c, -, hphase⟩ := h.inquiry hid hs
  generalize c.stage = stage, asked s r id = requests at hphase
  cases hphase with
  | made => exact List.nil_prefix
  | asks | told | done => exact List.prefix_rfl

/-- Such a call returns what the table has answered. -/
theorem Recorded.answered_of_done (h : Recorded timeout s r) (hid : r.scripts[id]? = some script)
    (hs : script.Inquires wrap input) {a : α} (hd : s.stage? id = some (.done a)) :
    ∃ result, a = wrap result ∧ .answered id result ∈ ({} : Table).said r.history.inputs := by
  obtain ⟨c, hc, hphase⟩ := h.inquiry hid hs
  have hstage : c.stage = .done a := Option.some.inj ((stage?_of_call? hc).symm.trans hd)
  rw [hstage] at hphase
  generalize asked s r id = requests at hphase
  cases hphase with
  | done hm => exact ⟨_, rfl, hm⟩

end Session

end RobotBridge
