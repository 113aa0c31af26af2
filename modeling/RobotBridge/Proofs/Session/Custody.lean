import RobotBridge.Proofs.Session.OneShot
import RobotBridge.Proofs.Session.Opening
import RobotBridge.Proofs.Session.Rest
import Mathlib.Data.List.Nodup

/-! Who answers for a connection. From its opening on it is with a call or with an entry, until its
end has been yielded or a close has been queued on it. -/
namespace RobotBridge.Session
open Table (Input Output Change)

/-! ### Entries and their connections -/

namespace Entry

variable {c : String} {entry : Entry} {input : Input} {out : List Output}

/-- An entry goes with the end of its connection, or has it closed. -/
theorem Turn.goes (ht : Turn c entry input none out) : ∃ e, input = .event entry.connection e ∧
    (e.isTerminal ∨ .command entry.connection (.close CloseCode.normal) ∈ out) := by
  cases ht with
  | reject => exact ⟨_, rfl, .inr (by simp)⟩
  | fail | shut | snap | expire => exact ⟨_, rfl, .inl rfl⟩
  | part he => exact ⟨_, rfl, .inl he⟩

theorem Turn.not_isTerminal {entry' : Entry} {k : Nat} {e : Event}
    (ht : Turn c entry (.event k e) (some entry') out) : e.isTerminal = false := by
  cases ht <;> rfl

end Entry

namespace Table

variable {t t' : Table} {input : Input} {out : List Output} {k : Nat}

def Holds (t : Table) (k : Nat) : Prop := ∃ q ∈ t.entries, q.2.connection = k

theorem WellFormed.holds_unique (h : t.WellFormed) (hk : t.Holds k) :
    ∃! q, q ∈ t.entries ∧ q.2.connection = k := by
  obtain ⟨q, hq, rfl⟩ := hk
  exact ⟨q, ⟨hq, rfl⟩, fun r hr => List.inj_on_of_nodup_map h.distinct hr.1 hq hr.2⟩

theorem WellFormed.running_of_holds (h : t.WellFormed) (hk : t.Holds k) : t.running := by
  obtain ⟨q, hq, -⟩ := hk
  by_contra hr
  rw [h.stopped (Bool.not_eq_true _ ▸ hr)] at hq
  exact absurd hq List.not_mem_nil

/-- A connection stays with its entry until its end is heard or it is told to close. -/
theorem Change.holds_or (h : t.WellFormed) (hc : Change t input t' out) (hk : t.Holds k) :
    t'.Holds k ∨ (∃ e, input = .event k e ∧ e.isTerminal) ∨ .command k (.close CloseCode.normal) ∈ out := by
  obtain ⟨⟨d, entry⟩, hq, rfl⟩ := hk
  cases hc with
  | opens _ hno =>
    exact .inl ⟨_, (mem_place h.ascending).mpr (.inr ⟨(entryOf?_eq_none_iff h.ascending).mp hno _ hq, hq⟩), rfl⟩
  | @turn c held o _ _ _ he ht =>
    by_cases hd : d = c
    · subst hd
      obtain rfl := Option.some.inj (((entryOf?_eq_some_iff h.ascending).mpr hq).symm.trans he)
      cases o with
      | some entry' => exact .inl ⟨(d, entry'), (mem_place h.ascending).mpr (.inl ⟨rfl, rfl⟩), ht.connection⟩
      | none =>
        obtain ⟨e, rfl, hend | hclose⟩ := ht.goes
        · exact .inr (.inl ⟨e, rfl, hend⟩)
        · exact .inr (.inr hclose)
    · exact .inl ⟨_, (mem_place h.ascending).mpr (.inr ⟨hd, hq⟩), rfl⟩
  | stop =>
    refine .inr (.inr (List.mem_append_left _ ?_))
    exact List.mem_flatMap.mpr ⟨_, hq, List.mem_cons_self⟩
  | absent | stray | list | refuse => exact .inl ⟨_, hq, rfl⟩

/-- A connection that an entry holds after an input was held before and has not ended, or is new. -/
theorem Change.of_holds (h : t.WellFormed) (hc : Change t input t' out) (hk : t'.Holds k) :
    (t.Holds k ∧ ∀ e, input = .event k e → e.isTerminal = false) ∨ ∃ c, out = [.opened k c] := by
  obtain ⟨⟨d, entry⟩, hq, rfl⟩ := hk
  rcases hc.origin h hq with ⟨old, hold, -, hconn⟩ | ⟨-, hout⟩
  · refine .inl ⟨⟨_, hold, hconn⟩, ?_⟩
    rintro e rfl
    cases hc with
    | @turn c held o _ _ _ he ht =>
      rcases (mem_place h.ascending).mp hq with ⟨-, rfl⟩ | ⟨hne, hq⟩
      · exact ht.not_isTerminal
      · -- The event is heard by the entry that holds its connection, and this is another one.
        exact absurd ht.touches (h.connection_ne he hq hne)
    | stray _ hno => exact absurd rfl (hno _ hq)
    | stop _ hs => exact absurd hs Bool.false_ne_true
    | refuse hr => simp [h.stopped hr] at hq
  · exact .inr ⟨d, hout⟩

theorem Change.holds_opened {call : Nat} {c : String} (h : t.WellFormed)
    (hc : Change t (.subscribe call c) t' out) (hout : out = [.opened k c]) : t'.Holds k := by
  cases hc with
  | opens =>
    obtain ⟨rfl, -⟩ := Output.opened.inj (List.singleton_inj.mp hout)
    exact ⟨(c, _), (mem_place h.ascending).mpr (.inl ⟨rfl, rfl⟩), rfl⟩
  | turn _ _ ht => cases ht <;> cases hout
  | stop _ hs => exact absurd hs Bool.false_ne_true
  | refuse => cases hout

end Table

/-! ### What every trace keeps -/

variable {α : Type} {timeout : Duration} {v v' : View α} {log before later : Log α} {notes : List (Note α)}
  {n k : Nat}

/-- The end of a connection has been yielded, or a close has been queued on it. -/
def LetGo (n : Nat) (log : Log α) : Prop :=
  (∃ e ∈ yielded n log, e.isTerminal) ∨ .close CloseCode.normal ∈ queued n log

private theorem mem_yielded_append {e : Event} (h : e ∈ yielded n log) (t : Nat) (notes : List (Note α)) :
    e ∈ yielded n (log ++ stamp t notes) := by
  rw [yielded_append]
  exact List.mem_append_left _ h

theorem LetGo.append (h : LetGo n log) (t : Nat) (notes : List (Note α)) :
    LetGo n (log ++ stamp t notes) := by
  rcases h with ⟨e, he, hend⟩ | h
  · exact .inl ⟨e, mem_yielded_append he .., hend⟩
  · refine .inr ?_
    rw [queued_append]
    exact List.mem_append_left _ h

/-- What ties the connections of the table to its entries, to the events on their way to it and to
the log. -/
structure Custody (v : View α) (log : Log α) : Prop where
  taken : ∀ k e, (k, e) ∈ v.events → ∃ n, ownerOf? v.lines n = some (.table k) ∧ e ∈ yielded n log
  noted : ∀ q ∈ v.table.entries, ∃ t n, (t, .connected n (.table q.2.connection) q.1) ∈ log
  held : ∀ n k, ownerOf? v.lines n = some (.table k) → v.table.Holds k ∨ LetGo n log
  /-- The end of a connection that an entry still holds is on its way. -/
  ending : ∀ (n k : Nat) (p : Line), v.lines[n]? = some (.table k, p) → v.table.Holds k → p.terminated →
    ∃ e, (k, e) ∈ v.events ∧ e.isTerminal

theorem Custody.start (timeout : Duration) : Custody (view ({ timeout } : Session α)) [] where
  taken _ _ h := by simp [view] at h
  noted _ h := by simp [view] at h
  held _ _ h := by simp [view, ownerOf?] at h
  ending _ _ _ h := by simp [view] at h

/-- Nothing happens to the table, and to its lines nothing that ends them. -/
private theorem Custody.frame (h : Custody v log) {t : Nat} (htable : v'.table = v.table)
    (hevents : v'.events = v.events)
    (howner : ∀ n k, ownerOf? v'.lines n = some (.table k) ↔ ownerOf? v.lines n = some (.table k))
    (hterm : ∀ (n k : Nat) (p' : Line), v'.lines[n]? = some (.table k, p') → v.table.Holds k → p'.terminated →
      ∃ p : Line, v.lines[n]? = some (.table k, p) ∧ p.terminated) :
    Custody v' (log ++ stamp t notes) where
  taken k e hm := by
    obtain ⟨n, ho, he⟩ := h.taken k e (hevents ▸ hm)
    exact ⟨n, (howner n k).mpr ho, mem_yielded_append he ..⟩
  noted q hq := by
    obtain ⟨t, n, hm⟩ := h.noted q (htable ▸ hq)
    exact ⟨t, n, List.mem_append_left _ hm⟩
  held n k ho := by
    rw [htable]
    exact (h.held n k ((howner n k).mp ho)).imp_right fun hl => hl.append ..
  ending n k p' hp' hk ht := by
    rw [htable] at hk
    obtain ⟨p, hp, ht⟩ := hterm n k p' hp' hk ht
    rw [hevents]
    exact h.ending n k p hp hk ht

private theorem Custody.set (h : Custody v log) {t : Nat} {o : Owner} {p q : Line}
    (hp : v.lines[n]? = some (o, p))
    (hterm : ∀ k, o = .table k → v.table.Holds k → q.terminated → p.terminated)
    (errands : Nat → Option (Errand α)) :
    Custody { v with lines := v.lines.set n (o, q), errands } (log ++ stamp t notes) := by
  refine h.frame rfl rfl (fun m k => by rw [ownerOf?_set hp]) fun m k p' hp' hk ht => ?_
  rcases getElem?_set_cases hp hp' with ⟨rfl, ho, rfl⟩ | ⟨-, hp'⟩
  · exact ⟨p, ho ▸ hp, hterm k ho.symm hk ht⟩
  · exact ⟨p', hp', ht⟩

private theorem Custody.errand (h : Custody v log) (w : Wired timeout v log) {id t : Nat} {errand : Errand α}
    {o : Owner} {p : Line} (he : v.errands id = some errand) (hp : v.lines[errand.line]? = some (o, p))
    (q : Line) (errands : Nat → Option (Errand α)) :
    Custody { v with lines := v.lines.set errand.line (o, q), errands } (log ++ stamp t notes) := by
  obtain ⟨rfl, -⟩ := w.of_errand he hp
  exact h.set hp (by simp) errands

private theorem Custody.carryOn (h : Custody v log) (w : Wired timeout v log) {id t : Nat}
    {errand : Errand α} {o : Owner} {p : Line} (he : v.errands id = some errand)
    (hp : v.lines[errand.line]? = some (o, p)) (q : Line) (r : Exchange × List Exchange.Action) :
    Custody (v.carryOn id o errand q r) (log ++ stamp t notes) := by
  unfold View.carryOn
  cases (Exchange.outcomes r.2).getLast? <;> exact h.errand w he hp _ _

private theorem Custody.forwards (h : Custody v log) {p q : Line} {e : Event}
    (hp : v.lines[n]? = some (.table k, p)) (hn : p.nextEvent = (q, .ready e)) {t : Nat} :
    Custody { v with lines := v.lines.set n (.table k, q), events := v.events ++ [(k, e)] }
      (log ++ stamp t [.passed n (.yield e)]) where
  taken j e' hm := by
    rcases List.mem_append.mp hm with hm | hm
    · obtain ⟨m, ho, he⟩ := h.taken j e' hm
      exact ⟨m, by rw [ownerOf?_set hp, ho], mem_yielded_append he ..⟩
    · obtain ⟨rfl, rfl⟩ := Prod.mk.inj (List.mem_singleton.mp hm)
      exact ⟨n, by rw [ownerOf?_set hp]; exact ownerOf?_eq_some.mpr ⟨p, hp⟩, by simp [yielded_append]⟩
  noted q hq := by
    obtain ⟨t, m, hm⟩ := h.noted q hq
    exact ⟨t, m, List.mem_append_left _ hm⟩
  held m j ho := by
    rw [ownerOf?_set hp] at ho
    exact (h.held m j ho).imp_right fun hl => hl.append ..
  ending m j p' hp' hk ht := by
    obtain ⟨-, hterm, -⟩ := Line.nextEvent_ready hn
    rcases getElem?_set_cases hp hp' with ⟨rfl, ho, rfl⟩ | ⟨-, hp'⟩
    · obtain rfl := Owner.table.inj ho
      exact ⟨e, List.mem_append_right _ List.mem_cons_self, hterm ▸ ht⟩
    · obtain ⟨e', hm, hend⟩ := h.ending m j p' hp' hk ht
      exact ⟨e', List.mem_append_left _ hm, hend⟩

private theorem Custody.subscribes (h : Custody v log) (w : Wired timeout v log) {call t : Nat} {c : String}
    {table : Table} (hc : Change v.table (.subscribe call c) table [.opened v.table.nextConnection c]) :
    Custody { v with lines := v.lines ++ [(.table v.table.nextConnection, {})], table }
      (log ++ stamp t [.connected v.lines.length (.table v.table.nextConnection) c]) where
  taken k e hm := by
    obtain ⟨n, ho, he⟩ := h.taken k e hm
    exact ⟨n, ownerOf?_snoc ho _, mem_yielded_append he ..⟩
  noted q hq := by
    obtain ⟨d, entry⟩ := q
    rcases hc.origin w.wellFormed hq with ⟨old, hold, -, hconn⟩ | ⟨-, hout⟩
    · obtain ⟨t, n, hm⟩ := h.noted _ hold
      exact ⟨t, n, List.mem_append_left _ (hconn ▸ hm)⟩
    · obtain ⟨hk, rfl⟩ := Output.opened.inj (List.singleton_inj.mp hout)
      exact ⟨t, v.lines.length, List.mem_append_right _ (mem_stamp.mpr ⟨rfl, by simp [hk]⟩)⟩
  held n k ho := by
    rcases ownerOf?_snoc_cases ho with ⟨-, hk⟩ | ho
    · obtain rfl := Owner.table.inj hk
      exact .inl (hc.holds_opened w.wellFormed rfl)
    · rcases h.held n k ho with hk | hl
      · rcases hc.holds_or w.wellFormed hk with hk | ⟨_, hi, -⟩ | hm
        · exact .inl hk
        · cases hi
        · simp at hm
      · exact .inr (hl.append ..)
  ending n k p hp hk ht := by
    rcases getElem?_snoc_cases hp with ⟨-, -, rfl⟩ | hp
    · exact absurd ht Bool.false_ne_true
    · rcases hc.of_holds w.wellFormed hk with ⟨hk, -⟩ | ⟨d, hout⟩
      · exact h.ending n k p hp hk ht
      · obtain ⟨rfl, -⟩ := Output.opened.inj (List.singleton_inj.mp hout)
        exact absurd (w.fresh n _ (ownerOf?_eq_some.mpr ⟨p, hp⟩)) (Nat.lt_irrefl _)

private theorem eq_event {input : Input} {e : Event} (h : (k, e) ∈ input.event?.toList) :
    input = .event k e := by
  cases input with
  | event => simpa [Input.event?, eq_comm] using h
  | subscribe | unsubscribe | list | shutdown | abandoned => simp [Input.event?] at h

private theorem Custody.handles (h : Custody v log) (w : Wired timeout v log) {input : Input}
    {outputs : List Output} {table : Table} {events : List (Nat × Event)} {lines : List (Owner × Line)}
    (hc : Change v.table input table outputs) (hev : v.events = input.event?.toList ++ events)
    (hno : ∀ k c, .opened k c ∉ outputs) (hcarried : Carried v.lines outputs notes lines) {t : Nat} :
    Custody { v with lines, table, events } (log ++ stamp t notes) where
  taken k e hm := by
    obtain ⟨n, ho, he⟩ := h.taken k e (hev ▸ List.mem_append_right _ hm)
    exact ⟨n, by rw [hcarried.ownerOf?_eq, ho], mem_yielded_append he ..⟩
  noted q hq := by
    obtain ⟨d, entry⟩ := q
    rcases hc.origin w.wellFormed hq with ⟨old, hold, -, hconn⟩ | ⟨-, hout⟩
    · obtain ⟨t, n, hm⟩ := h.noted _ hold
      exact ⟨t, n, List.mem_append_left _ (hconn ▸ hm)⟩
    · exact absurd (hout ▸ List.mem_cons_self) (hno _ _)
  held n k ho := by
    rw [hcarried.ownerOf?_eq] at ho
    have honly (m : Nat) (hm : ownerOf? v.lines m = some (.table k)) : m = n := w.unique m n k hm ho
    rcases h.held n k ho with hk | hl
    · rcases hc.holds_or w.wellFormed hk with hk | ⟨e, rfl, hend⟩ | hclose
      · exact .inl hk
      · obtain ⟨m, hm, he⟩ := h.taken k e (hev ▸ List.mem_append_left _ List.mem_cons_self)
        obtain rfl := honly m hm
        exact .inr (.append (.inl ⟨e, he, hend⟩) ..)
      · have hnote := hcarried.queued k _ n hclose ho honly
        refine .inr (.inr ?_)
        rw [queued_append]
        exact List.mem_append_right _ (List.mem_filterMap.mpr
          ⟨.queue (.close CloseCode.normal), List.mem_filterMap.mpr ⟨_, hnote, by simp⟩, rfl⟩)
    · exact .inr (hl.append ..)
  ending n k q hq hk ht := by
    obtain ⟨p, hp, hkeep, -⟩ := hcarried.back hq
    rcases hc.of_holds w.wellFormed hk with ⟨hk, hlive⟩ | ⟨c, rfl⟩
    · obtain ⟨e, hm, hend⟩ := h.ending n k p hp hk (by rwa [hkeep] at ht)
      rcases List.mem_append.mp (hev ▸ hm) with hm | hm
      · exact absurd hend (by simp [hlive e (eq_event hm)])
      · exact ⟨e, hm, hend⟩
    · exact absurd List.mem_cons_self (hno k c)

private theorem Custody.befalls (h : Custody v log) {t : Nat} (hstep : Befalls v notes v') :
    Custody v' (log ++ stamp t notes) := by
  cases hstep with
  | passes => exact h.frame rfl rfl (fun _ _ => Iff.rfl) fun n k p hp _ ht => ⟨p, hp, ht⟩
  | @emits n o p e hp _ =>
    have hterm : (p.emit e).1.terminated = p.terminated := by
      obtain ⟨_, hemit⟩ := p.emit_frame e
      rw [hemit]
    exact h.set hp (fun _ _ _ ht => hterm ▸ ht) _
  | @vanishes n o p hp => exact h.set (q := p.dropTransport) hp (fun _ _ _ ht => ht) _

private theorem Custody.occurs (h : Custody v log) (w : Wired timeout v log) {t : Nat}
    (hstep : Occurs v notes v') : Custody v' (log ++ stamp t notes) := by
  cases hstep with
  | idle => exact h.frame rfl rfl (fun _ _ => Iff.rfl) fun n k p hp _ ht => ⟨p, hp, ht⟩
  | begins =>
    refine h.frame rfl rfl (fun n k => ⟨fun ho => ?_, fun ho => ownerOf?_snoc ho _⟩) fun n k p hp _ ht => ?_
    · rcases ownerOf?_snoc_cases ho with ⟨-, ho⟩ | ho
      · contradiction
      · exact ho
    · rcases getElem?_snoc_cases hp with ⟨-, ho, -⟩ | hp
      · contradiction
      · exact ⟨p, hp, ht⟩
  | feeds he hp _ => exact h.carryOn w he hp _ _
  | expires he hp _ _ => exact h.carryOn w he hp _ _
  | falls he hp _ => exact h.errand w he hp _ _
  | forwards _ hp hn => exact h.forwards hp hn
  | deafens hr hp _ =>
    exact h.set hp (fun k _ hk => absurd (w.wellFormed.running_of_holds hk) (by simp [hr])) _
  | subscribes _ hc => exact h.subscribes w hc
  | handles hc hev hno hcarried => exact h.handles w hc hev hno hcarried

theorem Trace.custody (h : Trace timeout v log) : Custody v log := by
  induction h with
  | start => exact .start timeout
  | act _ hstep ih => exact ih.befalls hstep
  | move ht hstep ih => exact ih.occurs ht.wired hstep

/-! ### One-shot calls -/

/-- A call that is done with its connection has had its end, or has had it closed. -/
theorem OneShot.letGo {start id : Nat} {x : Exchange} {next : Exchange.Outcome → Script α}
    (h : OneShot timeout v log start n id x next) (hx : x.phase = .opening) :
    (∃ errand, v.runs id n errand) ∨ LetGo n log := by
  cases h with
  | running hr => exact .inl ⟨_, hr⟩
  | @decided es e outcome _ hes ho hone hq =>
    obtain ⟨-, -, hc⟩ := (Exchange.undecided hx ho).decides (e := e) (by
      rw [Exchange.asked_snoc, Exchange.outcomes_append, hone]
      simp)
    cases hend : e.isTerminal with
    | true => exact .inr (.inl ⟨e, hes ▸ List.mem_append_right es List.mem_cons_self, hend⟩)
    | false =>
      refine .inr (.inr ?_)
      rw [hq, hc, hend]
      exact List.mem_append_right _ List.mem_cons_self
  | late _ _ hq => exact .inr (.inr (hq ▸ List.mem_append_right _ List.mem_cons_self))

private theorem Trace.letGo_of_call (h : Trace timeout v log) {id : Nat}
    (ho : ownerOf? v.lines n = some (.call id)) : (∃ errand, v.runs id n errand) ∨ LetGo n log := by
  obtain ⟨start, script, hb⟩ := h.wired.exists_began ho
  obtain ⟨x, next, hs⟩ := h.oneShot?_of_began hb
  exact (h.oneShot hb hs).letGo (oneShot?_phase hs)

/-! ### Connections of the table -/

/-- By the time that a channel has no entry its connections have been let go. -/
private theorem Trace.letGo_of_entryOf? (h : Trace timeout v log) {c : String}
    (hno : v.table.entryOf? c = none) {t : Nat} (hm : (t, .connected n (.table k) c) ∈ log) : LetGo n log := by
  have w := h.wired
  obtain ⟨ho, hone⟩ := w.of_connected hm
  refine (h.custody.held n k ho).resolve_left ?_
  rintro ⟨⟨d, entry⟩, hq, rfl⟩
  obtain ⟨t', m, hnoted⟩ := h.custody.noted _ hq
  obtain ⟨ho', hone'⟩ := w.of_connected hnoted
  obtain rfl := w.unique m n _ ho' ho
  obtain ⟨-, rfl⟩ := Prod.mk.inj (List.singleton_inj.mp (hone'.symm.trans hone))
  exact (Table.entryOf?_eq_none_iff w.wellFormed.ascending).mp hno _ hq rfl

/-- The table opens a connection for a channel that has no entry. -/
private theorem Occurs.of_connected (h : Occurs v notes v') {c : String} {mid rest : List (Note α)}
    (hnotes : notes = mid ++ .connected n (.table k) c :: rest) : v.table.entryOf? c = none ∧ mid = [] := by
  have hm : .connected n (.table k) c ∈ notes := hnotes ▸ List.mem_append_right mid List.mem_cons_self
  cases h with
  | idle | begins | falls | forwards | deafens => simp at hm
  | feeds | expires =>
    rcases List.mem_cons.mp hm with hm | hm
    · contradiction
    · cases (Errand.of_mem_notes hm).2
  | subscribes hno =>
    obtain ⟨-, -, rfl⟩ : n = v.lines.length ∧ k = _ ∧ c = _ := by simpa using hm
    cases mid with
    | nil => exact ⟨hno, rfl⟩
    | cons => simp at hnotes
  | handles _ _ _ hcarried =>
    obtain ⟨_, _, _, heq, -⟩ := hcarried.onlyQueue _ hm
    contradiction

/-! ### The whole session -/

variable {s : Session α}

/-- What there is to say of a connection of an owner: a one-shot call is still on it, one entry holds
it and no other does, or it has been let go. -/
inductive Accounted (s : Session α) (log : Log α) (n : Nat) : Owner → Prop
  | pending {id x deadline next} : s.stage? id = some (.exchanging n x deadline next) →
      Accounted s log n (.call id)
  | held {connection} : (∃! q, q ∈ s.table.entries ∧ q.2.connection = connection) →
      Accounted s log n (.table connection)
  | letGo {owner} : LetGo n log → Accounted s log n owner

private theorem Logged.accounted (h : Logged timeout s log) {owner : Owner}
    (ho : ownerOf? s.lines n = some owner) : Accounted s log n owner := by
  have ht := h.trace
  cases owner with
  | call id =>
    rcases ht.letGo_of_call ho with ⟨errand, he, rfl⟩ | hl
    · exact .pending (stage?_of_errand? he).1
    · exact .letGo hl
  | table k =>
    rcases ht.custody.held n k ho with hk | hl
    · exact .held (ht.wired.wellFormed.holds_unique hk)
    · exact .letGo hl

/-- In every run, each connection that was opened is accounted for at any time: its one-shot call is
still pending, exactly one live entry holds it, its end has been yielded, or a close has been queued on
it, where it is left for as long as there is a transport. A subscribe call opens a connection for a
channel only when the earlier ones that subscribe calls opened for it have been let go. -/
theorem no_connection_leaks (h : Logged timeout s log) :
    (∀ n < s.lines.length, ∃ owner c, openings n log = [(owner, c)]) ∧
    (∀ t n owner c, (t, .connected n owner c) ∈ log →
      Accounted s log n owner ∧ ∃ p, s.lines[n]? = some (owner, p) ∧ (p.attached → p.commands = queued n log)) ∧
    ∀ before t n k c later, log = before ++ (t, .connected n (.table k) c) :: later →
      ∀ t' m j, (t', .connected m (.table j) c) ∈ before → LetGo m before := by
  have w := h.trace.wired
  refine ⟨fun n hn => ?_, fun t n owner c hm => ?_, fun before t n k c later hl t' m j hm => ?_⟩
  · obtain ⟨c, hc⟩ := (w.opened n _ (ownerOf?_eq_some.mpr ⟨_, List.getElem?_eq_getElem hn⟩)).1
    exact ⟨_, c, hc⟩
  · exact ⟨h.accounted (w.of_connected hm).1, h.commands_of_connected hm⟩
  · obtain ⟨v₀, log₀, v₁, notes, mid, rest, ht, hstep, hnotes, rfl, -⟩ := h.trace.split hl
    rcases hstep with hstep | hstep
    · obtain ⟨_, heq | ⟨_, heq⟩⟩ := hstep.of_mem (hnotes ▸ List.mem_append_right mid List.mem_cons_self)
      all_goals contradiction
    · obtain ⟨hno, rfl⟩ := hstep.of_connected hnotes
      rw [stamp, List.map_nil, List.append_nil] at hm ⊢
      exact ht.letGo_of_entryOf? hno hm

/-- A channel is subscribed to again after its first connection has closed. A publish has been sent, and
a request is on its way. -/
theorem no_connection_leaks_resubscribed :
    ∃ (s : Session Unit) (log before later : Log Unit), Logged ⟨5⟩ s log ∧
      log = before ++ (0, .connected 1 (.table 1) "A") :: later ∧
      LetGo 0 before ∧ yielded 0 before = [.closed CloseCode.abnormal] ∧ queued 0 before = [] ∧
      Accounted s log 1 (.table 1) ∧ yielded 1 log = [] ∧ queued 1 log = [] ∧
      Accounted s log 2 (.call 2) ∧ yielded 2 log = [.opened] ∧
      queued 2 log = [.send (Envelope.publish "B" "text" .null).encode, .close CloseCode.normal] ∧
      Accounted s log 3 (.call 3) ∧ yielded 3 log = [] ∧ queued 3 log = [] := by
  have empty : Logged ⟨5⟩ ({ timeout := ⟨5⟩ } : Session Unit) [] := .start
  have first := ((empty.act (.call (.subscribe "A" fun _ => .finish ()))).move (m := .resume 0) rfl).move
    (m := .command) rfl
  have ended := ((first.act (.emit 0 (.closed CloseCode.abnormal))).move (m := .forward 0) rfl).move
    (m := .event) rfl
  have second := ((ended.act (.call (.subscribe "A" fun _ => .finish ()))).move (m := .resume 1) rfl).move
    (m := .command) rfl
  have given := (second.act (.call (.publish "B" "text" .null fun _ => .finish ()))).move (m := .resume 2) rfl
  have sent := (given.act (.emit 2 .opened)).move (m := .take 2) rfl
  have asked := (sent.act (.call (.request "C" fun _ => .finish ()))).move (m := .resume 3) rfl
  obtain ⟨-, haccounted, hletGo⟩ := no_connection_leaks asked
  have again := hletGo _ 0 1 1 "A" _ (List.take_append_drop 3 _).symm
  exact ⟨_, _, _, _, asked, (List.take_append_drop 3 _).symm,
    again 0 0 0 (List.mem_of_getElem? (i := 0) rfl), rfl, rfl,
    (haccounted 0 1 _ "A" (List.mem_of_getElem? (i := 3) rfl)).1, rfl, rfl,
    (haccounted 0 2 _ "B" (List.mem_of_getElem? (i := 4) rfl)).1, rfl, rfl,
    (haccounted 0 3 _ "C" (List.mem_of_getElem? (i := 11) rfl)).1, rfl, rfl⟩

end RobotBridge.Session
