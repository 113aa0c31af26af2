import RobotBridge.Proofs.Session.Lines
import RobotBridge.Session.Settle

/-! A session at rest: no move can be made, so nothing waits that a move would take. -/
namespace RobotBridge.Session

variable {α : Type} {s : Session α} {p : Line}

theorem perform_eq_none (h : s.isSettled) {m : Move} (hm : m ∈ s.moves) : s.perform m = none :=
  List.findSome?_eq_none_iff.mp (Option.isNone_iff_eq_none.mp h) m hm

theorem stage?_of_errand? {id : Nat} {errand : Errand α} (h : s.errand? id = some errand) :
    s.stage? id = some (.exchanging errand.line errand.exchange errand.deadline errand.next) ∧
      id < s.calls.length := by
  obtain ⟨c, hc, he⟩ := Option.bind_eq_some_iff.mp h
  refine ⟨?_, (List.getElem?_eq_some_iff.mp hc).1⟩
  rw [stage?, hc, Option.map_some]
  cases hs : c.stage with
  | exchanging line x deadline next =>
    rw [hs] at he
    obtain rfl := Option.some.inj he
    rfl
  | ready | waiting | listing | stopping | streaming | done => simp [hs] at he

/-- A call that is still on an errand has no event to take and time left. -/
theorem rest_errand (h : s.isSettled) {id : Nat} {errand : Errand α} (he : s.errand? id = some errand)
    {o : Owner} (hl : s.lines[errand.line]? = some (o, p)) :
    p.hasEvent = false ∧ s.clock < errand.deadline := by
  obtain ⟨hs, hid⟩ := stage?_of_errand? he
  have hline : s.line? errand.line = some p := by simp [line?, hl]
  have hidle : p.hasEvent = false := by
    by_contra hev
    obtain ⟨q, e, hn⟩ := Line.nextEvent_of_hasEvent (Bool.not_eq_false _ ▸ hev)
    have htake := perform_eq_none h (m := .take id) (by simp [moves, hid])
    rw [perform, show (s.call? id).map CallState.stage = _ from hs] at htake
    simp [takeEvent, hline, hn] at htake
  refine ⟨hidle, Nat.lt_of_not_le fun hdue => ?_⟩
  have hexpire := perform_eq_none h (m := .expire id) (by simp [moves, hid])
  rw [perform, show (s.call? id).map CallState.stage = _ from hs] at hexpire
  simp [expire, hline, hdue, hidle] at hexpire

/-- Every script has gone on as far as it can. -/
theorem rest_script (h : s.isSettled) {id : Nat} {script : Script α} : s.stage? id ≠ some (.ready script) := by
  intro hs
  obtain ⟨c, hc, -⟩ := Option.map_eq_some_iff.mp hs
  have hlt : id < s.calls.length := (List.getElem?_eq_some_iff.mp hc).1
  have hresume := perform_eq_none h (m := .resume id) (by simp [moves, hlt])
  simp only [perform, show (s.call? id).map CallState.stage = _ from hs] at hresume
  contradiction

/-- What the connection of a subscription has to say has been passed on. -/
theorem rest_forward (h : s.isSettled) {n k : Nat} (hl : s.lines[n]? = some (.table k, p)) :
    p.hasEvent = false := by
  by_contra hev
  obtain ⟨q, e, hn⟩ := Line.nextEvent_of_hasEvent (Bool.not_eq_false _ ▸ hev)
  have hlt : n < s.lines.length := (List.getElem?_eq_some_iff.mp hl).1
  have hf := perform_eq_none h (m := .forward n) (by simp [moves, hlt])
  simp only [perform, forward, hl, hn, if_pos (Bool.not_eq_false _ ▸ hev), Option.map_eq_none_iff] at hf
  split at hf <;> contradiction

/-- The table has handled all that was on its way to it. -/
theorem rest_table (h : s.isSettled) : s.commands = [] ∧ s.events = [] := by
  have hcommand := perform_eq_none h (m := .command) (by simp [moves])
  have hcommands : s.commands = [] := by
    cases hc : s.commands with
    | nil => rfl
    | cons input rest => simp [perform, hc] at hcommand
  refine ⟨hcommands, ?_⟩
  have hevent := perform_eq_none h (m := .event) (by simp [moves])
  cases he : s.events with
  | nil => rfl
  | cons p rest => simp [perform, hcommands, he] at hevent

end RobotBridge.Session
