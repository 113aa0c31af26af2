import RobotBridge.Proofs.Session.Log

/-! What a session looks like from its connections, and all that one act or move can be to them. -/
namespace RobotBridge.Session
open Table (Input Output Change)

variable {α : Type}

/-- An exchange on its way: the line that it runs on, its machine, its deadline, and what its
outcome leads to. -/
structure Errand (α : Type) where
  line : Nat
  exchange : Exchange
  deadline : Nat
  next : Exchange.Outcome → Script α

@[simp] def Stage.errand? : Stage α → Option (Errand α)
  | .exchanging line exchange deadline next => some ⟨line, exchange, deadline, next⟩
  | _ => none

def errand? (s : Session α) (id : Nat) : Option (Errand α) := (s.call? id).bind fun c => c.stage.errand?

/-- All of a session that matters to its connections. -/
structure View (α : Type) where
  lines : List (Owner × Line)
  errands : Nat → Option (Errand α)
  table : Table
  events : List (Nat × Event)
  timeout : Duration
  clock : Nat

def view (s : Session α) : View α := ⟨s.lines, s.errand?, s.table, s.events, s.timeout, s.clock⟩

def Errand.notes (errand : Errand α) (actions : List Exchange.Action) : List (Note α) :=
  (Exchange.commands actions).map (fun c => .passed errand.line (.queue c)) ++
    ((Exchange.outcomes actions).getLast?.map fun o => .returned errand.line (errand.next o)).toList

/-- A call goes on with its errand, or has ended it and given up its connection. -/
def View.carryOn (v : View α) (id : Nat) (owner : Owner) (errand : Errand α) (p : Line)
    (r : Exchange × List Exchange.Action) : View α :=
  match (Exchange.outcomes r.2).getLast? with
  | some _ =>
    { v with
      lines := v.lines.set errand.line (owner, ((Exchange.commands r.2).foldl Line.queue p).dropSession)
      errands := Function.update v.errands id none }
  | none =>
    { v with
      lines := v.lines.set errand.line (owner, (Exchange.commands r.2).foldl Line.queue p)
      errands := Function.update v.errands id (some { errand with exchange := r.1 }) }

def ownerOf? (lines : List (Owner × Line)) (n : Nat) : Option Owner := (lines[n]?).map Prod.fst

/-- Commands of the table are queued on its lines, or a handle is given up, and nothing else. -/
structure Carried (lines : List (Owner × Line)) (outputs : List Output) (notes : List (Note α))
    (lines' : List (Owner × Line)) : Prop where
  owners : lines'.map Prod.fst = lines.map Prod.fst
  kept : ∀ n o p, lines[n]? = some (o, p) → ∃ q, lines'[n]? = some (o, q) ∧
    q = { p with commands := q.commands, held := q.held } ∧
    Line.Passes p (notes.filterMap (Note.use? n)) q
  onlyQueue : ∀ note ∈ notes, ∃ n k c, note = .passed n (.queue c) ∧ ownerOf? lines n = some (.table k) ∧
    .command k c ∈ outputs
  queued : ∀ k c n, .command k c ∈ outputs → ownerOf? lines n = some (.table k) →
    (∀ m, ownerOf? lines m = some (.table k) → m = n) → .passed n (.queue c) ∈ notes

inductive Befalls (v : View α) : List (Note α) → View α → Prop
  | passes {clock} : v.clock ≤ clock → Befalls v [] { v with clock }
  | emits {n o p} (e : Event) : v.lines[n]? = some (o, p) → p.attached →
      Befalls v [.passed n (.emit e)] { v with lines := v.lines.set n (o, (p.emit e).1) }
  | vanishes {n o p} : v.lines[n]? = some (o, p) →
      Befalls v [.passed n .vanish] { v with lines := v.lines.set n (o, p.dropTransport) }

inductive Occurs (v : View α) : List (Note α) → View α → Prop
  | idle : Occurs v [] v
  | begins {id script x next} : v.errands id = none → script.oneShot? = some (x, next) →
      Occurs v [.connected v.lines.length (.call id) x.channel, .began v.lines.length id script]
        { v with
          lines := v.lines ++ [(.call id, {})]
          errands := Function.update v.errands id
            (some ⟨v.lines.length, x, v.clock + v.timeout.nanoseconds, next⟩) }
  | feeds {id errand o p q e} : v.errands id = some errand → v.lines[errand.line]? = some (o, p) →
      p.nextEvent = (q, .ready e) →
      Occurs v (.passed errand.line (.yield e) :: errand.notes (errand.exchange.onEvent e).2)
        (v.carryOn id o errand q (errand.exchange.onEvent e))
  | expires {id errand o p} : v.errands id = some errand → v.lines[errand.line]? = some (o, p) →
      errand.deadline ≤ v.clock → p.hasEvent = false →
      Occurs v (.expired errand.line :: errand.notes (errand.exchange.onTimeout v.timeout).2)
        (v.carryOn id o errand p (errand.exchange.onTimeout v.timeout))
  /-- The events ended before: this never happens. -/
  | falls {id errand o p} : v.errands id = some errand → v.lines[errand.line]? = some (o, p) →
      p.terminated → Occurs v [.returned errand.line (errand.next (endedUnsettled errand.exchange.channel))]
        { v with
          lines := v.lines.set errand.line (o, p.dropSession)
          errands := Function.update v.errands id none }
  | forwards {n k p q e} : v.table.running → v.lines[n]? = some (.table k, p) →
      p.nextEvent = (q, .ready e) →
      Occurs v [.passed n (.yield e)]
        { v with lines := v.lines.set n (.table k, q), events := v.events ++ [(k, e)] }
  | deafens {n k p q e} : v.table.running = false → v.lines[n]? = some (.table k, p) →
      p.nextEvent = (q, .ready e) →
      Occurs v [.passed n (.yield e)] { v with lines := v.lines.set n (.table k, q.dropEvents) }
  | subscribes {call c table'} : v.table.entryOf? c = none →
      Change v.table (.subscribe call c) table' [.opened v.table.nextConnection c] →
      Occurs v [.connected v.lines.length (.table v.table.nextConnection) c]
        { v with lines := v.lines ++ [(.table v.table.nextConnection, {})], table := table' }
  | handles {input outputs table' events notes lines} : Change v.table input table' outputs →
      v.events = input.event?.toList ++ events → (∀ k c, .opened k c ∉ outputs) →
      Carried v.lines outputs notes lines → Occurs v notes { v with lines, table := table', events }

/-- What a session can look like from its connections, with what has happened to them. -/
inductive Trace (timeout : Duration) : View α → Log α → Prop
  | start : Trace timeout (view { timeout }) []
  | act {v v' log notes} : Trace timeout v log → Befalls v notes v' →
      Trace timeout v' (log ++ stamp v.clock notes)
  | move {v v' log notes} : Trace timeout v log → Occurs v notes v' →
      Trace timeout v' (log ++ stamp v.clock notes)

theorem Befalls.of_mem {v v' : View α} {notes : List (Note α)} {note : Note α} (h : Befalls v notes v')
    (hm : note ∈ notes) : ∃ n, note = .passed n .vanish ∨ ∃ e, note = .passed n (.emit e) := by
  cases h with
  | passes => exact absurd hm List.not_mem_nil
  | emits e => exact ⟨_, .inr ⟨e, List.mem_singleton.mp hm⟩⟩
  | vanishes => exact ⟨_, .inl (List.mem_singleton.mp hm)⟩

/-! ### Where a note comes from -/

@[simp] theorem mem_stamp {t time : Nat} {note : Note α} {notes : List (Note α)} :
    (t, note) ∈ stamp time notes ↔ t = time ∧ note ∈ notes := by
  simp [stamp, and_comm, eq_comm]

theorem split_append {β : Type} {xs ys before later : List β} {b : β}
    (h : xs ++ ys = before ++ b :: later) :
    (∃ mid, xs = before ++ b :: mid) ∨ ∃ mid, before = xs ++ mid ∧ ys = mid ++ b :: later := by
  rcases List.append_eq_append_iff.mp h with ⟨mid, hb, hy⟩ | ⟨mid, hx, hl⟩
  · exact .inr ⟨mid, hb, hy⟩
  · cases mid with
    | nil => exact .inr ⟨[], by simpa using hx.symm, by simpa using hl.symm⟩
    | cons c mid =>
      obtain ⟨rfl, -⟩ := List.cons.inj hl
      exact .inl ⟨mid, hx⟩

variable {timeout : Duration} {v : View α} {log before later : Log α} {entry : Nat × Note α}

private theorem Trace.made (h : Trace timeout v log) (hl : log = before ++ entry :: later) :
    ∃ v₀ log₀ v₁ notes mid later', Trace timeout v₀ log₀ ∧ (Befalls v₀ notes v₁ ∨ Occurs v₀ notes v₁) ∧
      before = log₀ ++ mid ∧ stamp v₀.clock notes = mid ++ entry :: later' := by
  induction h generalizing later with
  | start => exact absurd hl (by simp)
  | act ht hs ih =>
    rcases split_append hl with ⟨mid, hb⟩ | ⟨mid, hb, hn⟩
    · exact ih hb
    · exact ⟨_, _, _, _, mid, later, ht, .inl hs, hb, hn⟩
  | move ht hs ih =>
    rcases split_append hl with ⟨mid, hb⟩ | ⟨mid, hb, hn⟩
    · exact ih hb
    · exact ⟨_, _, _, _, mid, later, ht, .inr hs, hb, hn⟩

/-- A note is made in some act or move, and by then there is all that stands before it in the log. -/
theorem Trace.split (h : Trace timeout v log) (hl : log = before ++ entry :: later) :
    ∃ v₀ log₀ v₁ notes mid rest, Trace timeout v₀ log₀ ∧ (Befalls v₀ notes v₁ ∨ Occurs v₀ notes v₁) ∧
      notes = mid ++ entry.2 :: rest ∧ before = log₀ ++ stamp v₀.clock mid ∧ entry.1 = v₀.clock := by
  obtain ⟨v₀, log₀, v₁, notes, mid, later', ht, hs, rfl, hn⟩ := h.made hl
  obtain ⟨xs, ys, rfl, rfl, hys⟩ := List.map_eq_append_iff.mp hn
  obtain ⟨note, rest, rfl, hnote, -⟩ := List.map_eq_cons_iff.mp hys
  subst hnote
  exact ⟨v₀, log₀, v₁, _, xs, rest, ht, hs, rfl, rfl, rfl⟩

end RobotBridge.Session
