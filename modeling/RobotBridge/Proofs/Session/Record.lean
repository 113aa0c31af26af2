import RobotBridge.Proofs.Session.Conduct

/-! Records of runs: with the log and the history of a session, which calls were made and what each has
printed, asked for and been given. -/
namespace RobotBridge.Session
open Table (Input Output answersTo noticesTo)

variable {α : Type}

structure Record (α : Type) where
  log : Log α := []
  history : History α := {}
  /-- The scripts of the calls, in the order of their start. -/
  scripts : List (Script α) := []
  /-- What calls have printed, each text with its call. -/
  prints : List (Nat × String) := []

def Record.act (r : Record α) (s : Session α) (a : Act α) : Record α :=
  { r with
    log := r.log ++ stamp s.clock (s.actNotes a)
    scripts := r.scripts ++ (a.script? s).toList }

def Record.move (r : Record α) (s : Session α) (m : Move) (s' : Session α) (effects : List (Effect α)) : Record α :=
  { r with
    log := r.log ++ stamp s.clock (s.notes m s')
    history := r.history.extend s m effects
    prints := r.prints ++ m.call?.toList.flatMap fun id => (effects.filterMap Effect.text?).map (id, ·) }

/-- The sessions that one with a time limit can come to, in any order of acts and moves, with the record
of how. -/
inductive Recorded (timeout : Duration) : Session α → Record α → Prop
  | start : Recorded timeout { timeout } {}
  | act {s r} (a : Act α) : Recorded timeout s r → Recorded timeout (s.act a) (r.act s a)
  | move {s s' r m effects} : Recorded timeout s r → s.perform m = some (s', effects) →
      Recorded timeout s' (r.move s m s' effects)

variable {timeout : Duration} {s s' : Session α} {r r' : Record α} {m : Move} {effects : List (Effect α)} {id : Nat}

theorem Recorded.logged (h : Recorded timeout s r) : Logged timeout s r.log := by
  induction h with
  | start => exact .start
  | act a _ ih => exact ih.act a
  | move _ hm ih => exact ih.move hm

theorem Recorded.reached (h : Recorded timeout s r) : Reached timeout s r.history := by
  induction h with
  | start => exact .start
  | act a _ ih => exact ih.act a
  | move _ hm ih => exact ih.move hm

def Record.printed (r : Record α) (id : Nat) : List String :=
  r.prints.filterMap fun p => if p.1 = id then some p.2 else none

@[simp] theorem Record.printed_act (r : Record α) (s : Session α) (a : Act α) (id : Nat) :
    (r.act s a).printed id = r.printed id := rfl

private theorem filterMap_map_pair (j id : Nat) (texts : List String) :
    (texts.map (j, ·)).filterMap (fun p => if p.1 = id then some p.2 else none) = if j = id then texts else [] := by
  induction texts with
  | nil => exact (ite_self _).symm
  | cons text texts ih =>
    rw [List.map_cons, List.filterMap_cons, ih]
    by_cases hj : j = id <;> simp [hj]

theorem Record.printed_move (r : Record α) (s s' : Session α) (m : Move) (effects : List (Effect α)) (id : Nat) :
    (r.move s m s' effects).printed id = r.printed id ++ m.texts id effects := by
  rw [printed, printed, move, List.filterMap_append, Move.texts]
  congr 1
  cases m.call? with
  | none => rfl
  | some j =>
    rw [Option.toList_some, List.flatMap_singleton, filterMap_map_pair]
    by_cases hj : j = id <;> simp [hj]

/-! ### Schedules -/

def proceed? (x : Session α × Record α) : Act α ⊕ Move → Option (Session α × Record α)
  | .inl a => some (x.1.act a, x.2.act x.1 a)
  | .inr m => (x.1.perform m).map fun p => (p.1, x.2.move x.1 m p.1 p.2)

/-- What a session with a time limit comes to by some acts and moves, one after the other. -/
def play? (timeout : Duration) (schedule : List (Act α ⊕ Move)) : Option (Session α × Record α) :=
  schedule.foldlM proceed? ({ timeout }, {})

theorem play?_append (timeout : Duration) (xs ys : List (Act α ⊕ Move)) :
    play? timeout (xs ++ ys) = (play? timeout xs).bind (ys.foldlM proceed?) := List.foldlM_append

private theorem Recorded.proceed (h : Recorded timeout s r) {step : Act α ⊕ Move}
    (hp : proceed? (s, r) step = some (s', r')) : Recorded timeout s' r' := by
  cases step with
  | inl a =>
    obtain ⟨rfl, rfl⟩ := Prod.mk.inj (Option.some.inj hp)
    exact h.act a
  | inr m =>
    obtain ⟨p, hm, heq⟩ := Option.map_eq_some_iff.mp hp
    obtain ⟨rfl, rfl⟩ := Prod.mk.inj heq
    exact h.move hm

private theorem Recorded.play (h : Recorded timeout s r) {schedule : List (Act α ⊕ Move)}
    (hp : schedule.foldlM proceed? (s, r) = some (s', r')) : Recorded timeout s' r' := by
  induction schedule generalizing s r with
  | nil =>
    obtain ⟨rfl, rfl⟩ := Prod.mk.inj (Option.some.inj hp)
    exact h
  | cons step schedule ih =>
    obtain ⟨⟨s₁, r₁⟩, hstep, hrest⟩ := Option.bind_eq_some_iff.mp hp
    exact ih (h.proceed hstep) hrest

/-- The sessions with a record are those that some schedule leads to. -/
theorem recorded_iff_play? : Recorded timeout s r ↔ ∃ schedule, play? timeout schedule = some (s, r) := by
  constructor
  · intro h
    induction h with
    | start => exact ⟨[], rfl⟩
    | @act s r a _ ih =>
      obtain ⟨schedule, hp⟩ := ih
      refine ⟨schedule ++ [.inl a], ?_⟩
      rw [play?_append, hp]
      rfl
    | @move s s' r m effects _ hm ih =>
      obtain ⟨schedule, hp⟩ := ih
      refine ⟨schedule ++ [.inr m], ?_⟩
      rw [play?_append, hp, Option.bind_some, List.foldlM_cons, proceed?, hm]
      rfl
  · rintro ⟨schedule, hp⟩
    exact Recorded.start.play hp

/-- Nothing that is in a record is taken back. -/
theorem foldlM_proceed?_extends {schedule : List (Act α ⊕ Move)}
    (hp : schedule.foldlM proceed? (s, r) = some (s', r')) :
    r.scripts <+: r'.scripts ∧ r.history.inputs <+: r'.history.inputs := by
  induction schedule generalizing s r with
  | nil =>
    obtain ⟨rfl, rfl⟩ := Prod.mk.inj (Option.some.inj hp)
    exact ⟨List.prefix_rfl, List.prefix_rfl⟩
  | cons step schedule ih =>
    obtain ⟨⟨s₁, r₁⟩, hstep, hrest⟩ := Option.bind_eq_some_iff.mp hp
    obtain ⟨hscripts, hinputs⟩ := ih hrest
    cases step with
    | inl a =>
      obtain ⟨rfl, rfl⟩ := Prod.mk.inj (Option.some.inj hstep)
      exact ⟨(List.prefix_append ..).trans hscripts, hinputs⟩
    | inr m =>
      obtain ⟨p, -, heq⟩ := Option.map_eq_some_iff.mp hstep
      obtain ⟨rfl, rfl⟩ := Prod.mk.inj heq
      exact ⟨hscripts, (List.prefix_append ..).trans hinputs⟩

/-! ### In every record -/

/-- The subscribe and unsubscribe calls that a call has made so far, handled or on their way. -/
def asked (s : Session α) (r : Record α) (id : Nat) : List Input := own id r.history.inputs ++ own id s.commands

theorem asked_act (s : Session α) (r : Record α) (a : Act α) (id : Nat) :
    asked (s.act a) (r.act s a) id = asked s r id := by
  rw [asked, asked, commands_act]
  rfl

theorem asked_move (h : s.perform m = some (s', effects)) (r : Record α) (id : Nat) :
    asked s' (r.move s m s' effects) id = asked s r id ++ own id (s.issued? m).toList := by
  have hinputs : (r.move s m s' effects).history.inputs = r.history.inputs ++ (s.inputOf? m).toList := rfl
  rw [asked, asked, hinputs, own_append, List.append_assoc, perform_commands h, List.append_assoc]

theorem handled_prefix (s : Session α) (r : Record α) (id : Nat) : own id r.history.inputs <+: asked s r id :=
  List.prefix_append ..

/-- The table has said so much more after a move. -/
theorem Recorded.said_move (h : Recorded timeout s r) (m : Move) (s' : Session α) (effects : List (Effect α)) :
    ({} : Table).said (r.move s m s' effects).history.inputs =
      ({} : Table).said r.history.inputs ++ s.outputsOf m := by
  have hinputs : (r.move s m s' effects).history.inputs = r.history.inputs ++ (s.inputOf? m).toList := rfl
  rw [hinputs, Table.said_append, ← h.reached.consistent.table, outputsOf]
  cases s.inputOf? m with
  | none => rfl
  | some input => simp

theorem Recorded.table_move (h : Recorded timeout s r) (hm : s.perform m = some (s', effects)) :
    s'.table = s.table.after (s.inputOf? m).toList := by
  rw [(h.move hm).reached.consistent.table, h.reached.consistent.table, ← Table.after_append]
  rfl

theorem Recorded.wellFormed (h : Recorded timeout s r) : s.table.WellFormed :=
  h.reached.consistent.table ▸ Table.wellFormed_after _

/-- There is a call for each script. -/
theorem Recorded.scripts_length (h : Recorded timeout s r) : r.scripts.length = s.calls.length := by
  induction h with
  | start => rfl
  | act a _ ih => rw [calls_length_act, ← ih, Record.act, List.length_append]
  | move _ hm ih => exact ih.trans (calls_length_perform hm).symm

/-- No call has done anything before it is made. -/
theorem Recorded.unmade (h : Recorded timeout s r) (hid : s.call? id = none) :
    asked s r id = [] ∧ r.printed id = [] := by
  induction h with
  | start => exact ⟨rfl, rfl⟩
  | @act s r a h ih =>
    rw [asked_act, Record.printed_act]
    exact ih (call?_of_act hid)
  | @move s s' r m effects h hm ih =>
    rw [asked_move hm, Record.printed_move]
    rcases perform_conducts hm id with ⟨hnone, -, htexts⟩ | ⟨c, c', hc, hc', -⟩
    · obtain ⟨hasked, hprinted⟩ := ih hnone
      have hissued : own id (s.issued? m).toList = [] := by
        by_cases hm' : m = .resume id
        · rw [hm', issued?, stage?, hnone]
          rfl
        · exact own_issued_of_ne s hm'
      rw [hasked, hprinted, htexts, hissued]
      exact ⟨rfl, rfl⟩
    · rw [hid] at hc'
      contradiction

/-- The call that an act makes has just its script, and the other calls stay as they are. -/
theorem Recorded.call?_act (h : Recorded timeout s r) (a : Act α) {script : Script α}
    (hid : (r.act s a).scripts[id]? = some script) :
    (r.scripts[id]? = some script ∧ (s.act a).call? id = s.call? id) ∨
      (s.call? id = none ∧ (s.act a).call? id = some ⟨.ready script, [], false⟩) := by
  have hlen := h.scripts_length
  rw [Session.call?_act, ← hlen]
  rw [Record.act, List.getElem?_append] at hid
  split at hid
  · next hlt => exact .inl ⟨hid, if_neg (Nat.ne_of_lt hlt)⟩
  · next hge =>
    obtain ⟨hone, heq⟩ := List.getElem?_eq_some_iff.mp hid
    cases hscript : a.script? s with
    | none => simp [hscript] at hone
    | some made =>
      have hidx : id = r.scripts.length := by
        simp only [hscript, Option.toList_some, List.length_singleton] at hone
        omega
      subst hidx
      refine .inr ⟨(call?_eq_none s _).mpr (Nat.le_of_eq hlen.symm), ?_⟩
      rw [if_pos rfl]
      simp_all

/-! ### What a record says of one call -/

@[simp] def Notice.envelope? : Notice → Option Envelope
  | .message envelope => some envelope
  | .error _ => none

namespace Record

def told (r : Record α) (id : Nat) : List (Except CallError Unit) := answersTo id (({} : Table).said r.history.inputs)

def given (r : Record α) (id : Nat) : List Notice := noticesTo id (({} : Table).said r.history.inputs)

def free (r : Record α) (id : Nat) : Bool := Table.freed id (({} : Table).said r.history.inputs)

def delivered (r : Record α) (id : Nat) : List Envelope :=
  r.history.effects.filterMap fun
    | .handled n (.message envelope) => if n = id then some envelope else none
    | _ => none

end Record

end RobotBridge.Session
