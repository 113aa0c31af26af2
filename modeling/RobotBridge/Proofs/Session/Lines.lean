import RobotBridge.Proofs.Session.Occurrence

/-! The lines of a session and its log: each line is what has passed over it, and belongs for good to
one call or to one connection of the table. -/
namespace RobotBridge.Session
open Table (Input Output Change)

variable {α : Type}

/-! ### Logs -/

section Logs

variable {β : Type} {f : Note α → Option β} {n t : Nat} {log : Log α} {notes : List (Note α)}

@[simp] theorem pick_append (f : Note α → Option β) (log : Log α) (t : Nat) (notes : List (Note α)) :
    pick f (log ++ stamp t notes) = pick f log ++ notes.filterMap f := by
  rw [pick, stamp, List.filterMap_append, List.filterMap_map]
  rfl

theorem traffic_append (n : Nat) (log : Log α) (t : Nat) (notes : List (Note α)) :
    traffic n (log ++ stamp t notes) = traffic n log ++ notes.filterMap (Note.use? n) := pick_append ..

theorem yielded_append (n : Nat) (log : Log α) (t : Nat) (notes : List (Note α)) :
    yielded n (log ++ stamp t notes) = yielded n log ++ Line.yielded (notes.filterMap (Note.use? n)) := by
  rw [yielded, traffic_append, Line.yielded_append, yielded]

theorem queued_append (n : Nat) (log : Log α) (t : Nat) (notes : List (Note α)) :
    queued n (log ++ stamp t notes) = queued n log ++ Line.queued (notes.filterMap (Note.use? n)) := by
  rw [queued, traffic_append, Line.queued_append, queued]

theorem returned_append (n : Nat) (log : Log α) (t : Nat) (notes : List (Note α)) :
    returned n (log ++ stamp t notes) = returned n log ++ notes.filterMap (Note.script? n) := pick_append ..

theorem expiries_append (n : Nat) (log : Log α) (t : Nat) (notes : List (Note α)) :
    expiries n (log ++ stamp t notes) = expiries n log ++ notes.filterMap (Note.expiry? n) := pick_append ..

def Note.line : Note α → Nat
  | .connected n _ _ | .began n _ _ | .passed n _ | .expired n | .returned n _ => n

def Note.opens : Note α → Bool
  | .connected _ _ _ | .began _ _ _ => true
  | _ => false

theorem pick_eq_nil (hf : ∀ note b, f note = some b → note.line = n) (h : ∀ entry ∈ log, entry.2.line < n) :
    pick f log = [] := by
  refine List.filterMap_eq_nil_iff.mpr fun entry hm => ?_
  cases hb : f entry.2 with
  | none => rfl
  | some b => exact absurd (hf _ b hb) (Nat.ne_of_lt (h entry hm))

theorem filterMap_eq_nil_of_opens (hf : ∀ note b, f note = some b → note.opens)
    (h : ∀ note ∈ notes, note.opens = false) : notes.filterMap f = [] := by
  refine List.filterMap_eq_nil_iff.mpr fun note hm => ?_
  cases hb : f note with
  | none => rfl
  | some b => exact absurd (hf _ b hb) (by simp [h note hm])

theorem filterMap_eq_nil (hf : ∀ note b, f note = some b → note.line = n)
    (h : ∀ note ∈ notes, note.line ≠ n) : notes.filterMap f = [] := by
  refine List.filterMap_eq_nil_iff.mpr fun note hm => ?_
  cases hb : f note with
  | none => rfl
  | some b => exact absurd (hf _ b hb) (h note hm)

theorem line_of_use? (note : Note α) (use : Line.Use) (h : note.use? n = some use) : note.line = n := by
  cases note <;> simp_all [Note.line]

theorem line_of_opening? (note : Note α) (b : Owner × String) (h : note.opening? n = some b) :
    note.line = n := by
  cases note <;> simp_all [Note.line]

theorem line_of_start? (note : Note α) (b : Nat × Script α) (h : note.start? n = some b) : note.line = n := by
  cases note <;> simp_all [Note.line]

theorem opens_of_opening? (note : Note α) (b : Owner × String) (h : note.opening? n = some b) :
    note.opens := by
  cases note <;> simp_all [Note.opens]

theorem opens_of_start? (note : Note α) (b : Nat × Script α) (h : note.start? n = some b) : note.opens := by
  cases note <;> simp_all [Note.opens]

theorem line_of_script? (note : Note α) (script : Script α) (h : note.script? n = some script) :
    note.line = n := by
  cases note <;> simp_all [Note.line]

theorem line_of_expiry? (note : Note α) (u : Unit) (h : note.expiry? n = some u) : note.line = n := by
  cases note <;> simp_all [Note.line]

theorem openings_append_of_opens (h : ∀ note ∈ notes, note.opens = false) :
    openings n (log ++ stamp t notes) = openings n log := by
  rw [openings, pick_append, filterMap_eq_nil_of_opens opens_of_opening? h, List.append_nil, openings]

theorem starts_append_of_opens (h : ∀ note ∈ notes, note.opens = false) :
    starts n (log ++ stamp t notes) = starts n log := by
  rw [starts, pick_append, filterMap_eq_nil_of_opens opens_of_start? h, List.append_nil, starts]

end Logs

/-! ### Lines of a view -/

section Lists

variable {lines : List (Owner × Line)} {n m : Nat} {o o' : Owner} {p p' q : Line}

theorem getElem?_set_cases (hp : lines[n]? = some (o, p)) (h : (lines.set n (o, q))[m]? = some (o', p')) :
    (m = n ∧ o' = o ∧ p' = q) ∨ (m ≠ n ∧ lines[m]? = some (o', p')) := by
  by_cases hm : m = n
  · subst hm
    rw [List.getElem?_set_self (List.getElem?_eq_some_iff.mp hp).1] at h
    obtain ⟨rfl, rfl⟩ := Prod.mk.inj (Option.some.inj h)
    exact .inl ⟨rfl, rfl, rfl⟩
  · rw [List.getElem?_set_ne (Ne.symm hm)] at h
    exact .inr ⟨hm, h⟩

theorem ownerOf?_set (hp : lines[n]? = some (o, p)) (m : Nat) :
    ownerOf? (lines.set n (o, q)) m = ownerOf? lines m := by
  by_cases hm : n = m
  · subst hm
    simp [ownerOf?, hp, List.getElem?_set_self (List.getElem?_eq_some_iff.mp hp).1]
  · simp [ownerOf?, List.getElem?_set_ne hm]

theorem getElem?_snoc_cases (h : (lines ++ [(o, q)])[m]? = some (o', p')) :
    (m = lines.length ∧ o' = o ∧ p' = q) ∨ lines[m]? = some (o', p') := by
  rcases Nat.lt_or_ge m lines.length with hm | hm
  · exact .inr (by rwa [List.getElem?_append_left hm] at h)
  · rw [List.getElem?_append_right hm] at h
    obtain ⟨hz, heq⟩ := List.getElem?_eq_some_iff.mp h
    have hlt : m - lines.length < 1 := hz
    obtain ⟨rfl, rfl⟩ := Prod.mk.inj (by simpa using heq)
    exact .inl ⟨by omega, rfl, rfl⟩

theorem ownerOf?_snoc (h : ownerOf? lines m = some o) (line : Owner × Line) :
    ownerOf? (lines ++ [line]) m = some o := by
  obtain ⟨p, hp⟩ := ownerOf?_eq_some.mp h
  refine ownerOf?_eq_some.mpr ⟨p, ?_⟩
  rw [List.getElem?_append_left (List.getElem?_eq_some_iff.mp hp).1, hp]

theorem ownerOf?_snoc_cases (h : ownerOf? (lines ++ [(o, q)]) m = some o') :
    (m = lines.length ∧ o' = o) ∨ ownerOf? lines m = some o' := by
  obtain ⟨p', hp'⟩ := ownerOf?_eq_some.mp h
  rcases getElem?_snoc_cases hp' with ⟨hm, ho, -⟩ | hp'
  · exact .inl ⟨hm, ho⟩
  · exact .inr (ownerOf?_eq_some.mpr ⟨p', hp'⟩)

end Lists

/-! ### What every trace keeps -/

@[simp] def Owner.call? : Owner → Option Nat
  | .call id => some id
  | .table _ => none

/-- What ties the lines of a session to its log, its errands and its table. -/
structure Wired (timeout : Duration) (v : View α) (log : Log α) : Prop where
  passes : ∀ n o p, v.lines[n]? = some (o, p) → Line.Passes {} (traffic n log) p
  within : ∀ entry ∈ log, entry.2.line < v.lines.length
  past : ∀ entry ∈ log, entry.1 ≤ v.clock
  opened : ∀ n o, ownerOf? v.lines n = some o →
    (∃ c, openings n log = [(o, c)]) ∧ (starts n log).map Prod.fst = o.call?.toList
  wellFormed : v.table.WellFormed
  unique : ∀ n m k, ownerOf? v.lines n = some (.table k) → ownerOf? v.lines m = some (.table k) → n = m
  fresh : ∀ n k, ownerOf? v.lines n = some (.table k) → k < v.table.nextConnection
  listening : v.table.running → ∀ (n k : Nat) (p : Line), v.lines[n]? = some (.table k, p) → p.listening
  errands : ∀ id errand, v.errands id = some errand →
    ∃ p : Line, v.lines[errand.line]? = some (.call id, p) ∧ p.listening
  timeout : v.timeout = timeout

variable {timeout : Duration} {v v' : View α} {log : Log α} {notes : List (Note α)}

/-- The line of an errand belongs to its call, which still listens. -/
theorem Wired.of_errand (w : Wired timeout v log) {id : Nat} {errand : Errand α} {o : Owner} {p : Line}
    (he : v.errands id = some errand) (hp : v.lines[errand.line]? = some (o, p)) :
    o = .call id ∧ p.listening := by
  obtain ⟨q, hq, hl⟩ := w.errands id errand he
  obtain ⟨rfl, rfl⟩ := Prod.mk.inj (Option.some.inj (hq.symm.trans hp))
  exact ⟨rfl, hl⟩

theorem Wired.start (timeout : Duration) : Wired timeout (view ({ timeout } : Session α)) [] where
  passes _ _ _ h := by simp [view] at h
  within _ h := absurd h List.not_mem_nil
  past _ h := absurd h List.not_mem_nil
  opened _ _ h := by simp [view, ownerOf?] at h
  wellFormed := Table.wellFormed_empty
  unique _ _ _ h := by simp [view, ownerOf?] at h
  fresh _ _ h := by simp [view, ownerOf?] at h
  listening _ _ _ _ h := by simp [view] at h
  errands _ _ h := by simp [view, errand?, call?] at h
  timeout := rfl

theorem Wired.past_append (w : Wired timeout v log) (notes : List (Note α)) :
    ∀ entry ∈ log ++ stamp v.clock notes, entry.1 ≤ v.clock := by
  intro entry h
  rcases List.mem_append.mp h with h | h
  · exact w.past entry h
  · obtain ⟨note, -, rfl⟩ := List.mem_map.mp h
    exact Nat.le_refl _

/-- Something passes over one line; errands go on, on their lines, or end. -/
theorem Wired.set (w : Wired timeout v log) {n : Nat} {o : Owner} {p q : Line}
    (hp : v.lines[n]? = some (o, p)) (hpass : Line.Passes p (notes.filterMap (Note.use? n)) q)
    (hnotes : ∀ note ∈ notes, note.line = n ∧ note.opens = false)
    (hlisten : ∀ k, o = .table k → v.table.running → q.listening)
    {errands : Nat → Option (Errand α)} {events : List (Nat × Event)}
    (herrands : ∀ id errand, errands id = some errand → ∃ old, v.errands id = some old ∧
      old.line = errand.line ∧ (o = .call id → p.listening → q.listening)) :
    Wired timeout { v with lines := v.lines.set n (o, q), errands, events } (log ++ stamp v.clock notes) where
  passes m o' p' h := by
    rw [traffic_append]
    rcases getElem?_set_cases hp h with ⟨rfl, rfl, rfl⟩ | ⟨hm, h⟩
    · exact (w.passes m o' p hp).trans hpass
    · rw [filterMap_eq_nil line_of_use? fun note hn => (hnotes note hn).1 ▸ Ne.symm hm, List.append_nil]
      exact w.passes m o' p' h
  within entry h := by
    rw [List.length_set]
    rcases List.mem_append.mp h with h | h
    · exact w.within entry h
    · obtain ⟨note, hn, rfl⟩ := List.mem_map.mp h
      rw [(hnotes note hn).1]
      exact (List.getElem?_eq_some_iff.mp hp).1
  past := w.past_append _
  opened m o h := by
    rw [ownerOf?_set hp] at h
    have hnone : ∀ note ∈ notes, note.opens = false := fun note hn => (hnotes note hn).2
    rw [openings_append_of_opens hnone, starts_append_of_opens hnone]
    exact w.opened m o h
  wellFormed := w.wellFormed
  unique m m' k h h' := by
    rw [ownerOf?_set hp] at h h'
    exact w.unique m m' k h h'
  fresh m k h := by
    rw [ownerOf?_set hp] at h
    exact w.fresh m k h
  listening hr m k p' h := by
    rcases getElem?_set_cases hp h with ⟨rfl, ho, rfl⟩ | ⟨-, h⟩
    · exact hlisten k ho.symm hr
    · exact w.listening hr m k p' h
  errands id errand h := by
    obtain ⟨old, hold, hline, hq⟩ := herrands id errand h
    obtain ⟨r, hr, hl⟩ := w.errands id old hold
    rw [hline] at hr
    by_cases hn : errand.line = n
    · subst hn
      obtain ⟨rfl, rfl⟩ := Prod.mk.inj (Option.some.inj (hp.symm.trans hr))
      exact ⟨q, List.getElem?_set_self (List.getElem?_eq_some_iff.mp hp).1, hq rfl hl⟩
    · exact ⟨r, by rw [List.getElem?_set_ne (Ne.symm hn), hr], hl⟩
  timeout := w.timeout

/-- A line is opened. -/
theorem Wired.snoc (w : Wired timeout v log) {o : Owner} {c : String} {rest : List (Note α)}
    {errands : Nat → Option (Errand α)} {table : Table} (hwf : table.WellFormed)
    (hle : v.table.nextConnection ≤ table.nextConnection) (hrun : table.running → v.table.running)
    (ho : ∀ k, o = .table k → k = v.table.nextConnection ∧ k < table.nextConnection)
    (hrest : ∀ note ∈ rest, ∃ id script, note = .began v.lines.length id script)
    (hstart : (rest.filterMap (Note.start? v.lines.length)).map Prod.fst = o.call?.toList)
    (herrands : ∀ id errand, errands id = some errand → v.errands id = some errand ∨
      errand.line = v.lines.length ∧ o = .call id) :
    Wired timeout { v with lines := v.lines ++ [(o, {})], errands, table }
      (log ++ stamp v.clock (.connected v.lines.length o c :: rest)) where
  passes n o' p' h := by
    have hnone : (Note.connected v.lines.length o c :: rest).filterMap (Note.use? n) = [] := by
      refine List.filterMap_eq_nil_iff.mpr fun note hn => ?_
      rcases List.mem_cons.mp hn with rfl | hn
      · rfl
      · obtain ⟨id, script, rfl⟩ := hrest note hn
        rfl
    rw [traffic_append, hnone, List.append_nil]
    rcases getElem?_snoc_cases h with ⟨rfl, -, rfl⟩ | h
    · rw [traffic, pick_eq_nil line_of_use? w.within]
      exact .refl
    · exact w.passes n o' p' h
  within entry h := by
    rw [List.length_append, List.length_singleton]
    rcases List.mem_append.mp h with h | h
    · exact Nat.lt_succ_of_lt (w.within entry h)
    · obtain ⟨note, hn, rfl⟩ := List.mem_map.mp h
      rcases List.mem_cons.mp hn with rfl | hn
      · exact Nat.lt_succ_self _
      · obtain ⟨id, script, rfl⟩ := hrest note hn
        exact Nat.lt_succ_self _
  past := w.past_append _
  opened n o' h := by
    have hnone : rest.filterMap (Note.opening? n) = [] :=
      List.filterMap_eq_nil_iff.mpr fun note hn => by obtain ⟨id, script, rfl⟩ := hrest note hn; rfl
    have hfirst : (Note.connected v.lines.length o c :: rest).filterMap (Note.start? n) =
      rest.filterMap (Note.start? n) := rfl
    rw [openings, starts, pick_append, pick_append, hfirst, List.filterMap_cons, hnone]
    rcases ownerOf?_snoc_cases h with ⟨rfl, rfl⟩ | h
    · rw [pick_eq_nil line_of_opening? w.within, pick_eq_nil line_of_start? w.within]
      exact ⟨⟨c, by simp⟩, by simpa using hstart⟩
    · obtain ⟨p, hp⟩ := ownerOf?_eq_some.mp h
      have hne : v.lines.length ≠ n := (Nat.ne_of_lt (List.getElem?_eq_some_iff.mp hp).1).symm
      have hlater : rest.filterMap (Note.start? n) = [] :=
        List.filterMap_eq_nil_iff.mpr fun note hn => by
          obtain ⟨id, script, rfl⟩ := hrest note hn
          simp [hne]
      simpa [hne, hlater, openings, starts] using w.opened n o' h
  wellFormed := hwf
  unique n m k h h' := by
    rcases ownerOf?_snoc_cases h with ⟨rfl, hk⟩ | h <;> rcases ownerOf?_snoc_cases h' with ⟨rfl, hk'⟩ | h'
    · rfl
    · exact absurd (w.fresh m k h') ((ho k hk.symm).1 ▸ Nat.lt_irrefl _)
    · exact absurd (w.fresh n k h) ((ho k hk'.symm).1 ▸ Nat.lt_irrefl _)
    · exact w.unique n m k h h'
  fresh n k h := by
    rcases ownerOf?_snoc_cases h with ⟨-, hk⟩ | h
    · exact (ho k hk.symm).2
    · exact Nat.lt_of_lt_of_le (w.fresh n k h) hle
  listening hr n k p h := by
    rcases getElem?_snoc_cases h with ⟨-, -, rfl⟩ | h
    · rfl
    · exact w.listening (hrun hr) n k p h
  errands id errand h := by
    rcases herrands id errand h with h | ⟨hl, rfl⟩
    · obtain ⟨p, hp, hlisten⟩ := w.errands id errand h
      exact ⟨p, by rw [List.getElem?_append_left (List.getElem?_eq_some_iff.mp hp).1, hp], hlisten⟩
    · exact ⟨{}, by rw [hl]; simp, rfl⟩
  timeout := w.timeout

theorem Errand.mem_notes {errand : Errand α} {actions : List Exchange.Action} {note : Note α}
    (h : note ∈ errand.notes actions) :
    (∃ c, note = .passed errand.line (.queue c)) ∨ ∃ script, note = .returned errand.line script := by
  rcases List.mem_append.mp h with h | h
  · obtain ⟨c, -, rfl⟩ := List.mem_map.mp h
    exact .inl ⟨c, rfl⟩
  · obtain ⟨outcome, -, rfl⟩ := Option.map_eq_some_iff.mp (Option.mem_toList.mp h)
    exact .inr ⟨_, rfl⟩

theorem Errand.of_mem_notes {errand : Errand α} {actions : List Exchange.Action} {note : Note α}
    (h : note ∈ errand.notes actions) : note.line = errand.line ∧ note.opens = false := by
  rcases mem_notes h with ⟨_, rfl⟩ | ⟨_, rfl⟩ <;> exact ⟨rfl, rfl⟩

@[simp] theorem Errand.uses_notes (errand : Errand α) (actions : List Exchange.Action) :
    (errand.notes actions).filterMap (Note.use? errand.line) =
      (Exchange.commands actions).map Line.Use.queue := by
  rw [notes, List.filterMap_append, List.filterMap_map]
  cases (Exchange.outcomes actions).getLast? <;> simp [Function.comp_def, List.filterMap_eq_map']

private theorem passes_foldl {p q : Line} {uses : List Line.Use} (h : Line.Passes p uses q)
    (cs : List Command) : Line.Passes p (uses ++ cs.map Line.Use.queue) (cs.foldl Line.queue q) := by
  induction cs generalizing q uses with
  | nil => simpa using h
  | cons c cs ih => simpa using ih (h.queue c)

theorem listening_foldl (p : Line) (cs : List Command) : (cs.foldl Line.queue p).listening = p.listening := by
  obtain ⟨_, h⟩ := Line.foldl_queue_frame p cs
  rw [h]

/-- A call ends its errand. -/
private theorem Wired.ends (w : Wired timeout v log) {id : Nat} {errand : Errand α} {o : Owner}
    {p q : Line} (he : v.errands id = some errand) (hp : v.lines[errand.line]? = some (o, p))
    (hpass : Line.Passes p (notes.filterMap (Note.use? errand.line)) q)
    (hnotes : ∀ note ∈ notes, note.line = errand.line ∧ note.opens = false) :
    Wired timeout
      { v with
        lines := v.lines.set errand.line (o, q)
        errands := Function.update v.errands id none } (log ++ stamp v.clock notes) := by
  obtain ⟨rfl, -⟩ := w.of_errand he hp
  refine w.set hp hpass hnotes (by simp) fun j e hj => ?_
  rw [Function.update_apply] at hj
  split at hj
  · contradiction
  · next hne => exact ⟨e, hj, rfl, fun ho => absurd (Owner.call.inj ho).symm hne⟩

/-- A call does something with its errand. -/
private theorem Wired.carryOn (w : Wired timeout v log) {id : Nat} {errand : Errand α} {o : Owner}
    {p q : Line} {first : Note α} (r : Exchange × List Exchange.Action) (he : v.errands id = some errand)
    (hp : v.lines[errand.line]? = some (o, p))
    (hpass : Line.Passes p (first.use? errand.line).toList q) (hq : q.listening = p.listening)
    (hfirst : first.line = errand.line ∧ first.opens = false) :
    Wired timeout (v.carryOn id o errand q r) (log ++ stamp v.clock (first :: errand.notes r.2)) := by
  have hall : Line.Passes p ((first :: errand.notes r.2).filterMap (Note.use? errand.line))
      ((Exchange.commands r.2).foldl Line.queue q) := by
    rw [Table.filterMap_cons_eq, Errand.uses_notes]
    exact passes_foldl hpass _
  have hnotes : ∀ note ∈ first :: errand.notes r.2, note.line = errand.line ∧ note.opens = false := by
    intro note hm
    rcases List.mem_cons.mp hm with rfl | hm
    · exact hfirst
    · exact Errand.of_mem_notes hm
  unfold View.carryOn
  cases (Exchange.outcomes r.2).getLast? with
  | some outcome => exact w.ends he hp hall.dropHandle.dropEvents hnotes
  | none =>
    obtain ⟨rfl, -⟩ := w.of_errand he hp
    refine w.set hp hall hnotes (by simp) fun j e hj => ?_
    have hl : p.listening → ((Exchange.commands r.2).foldl Line.queue q).listening := by
      rw [listening_foldl, hq]
      exact fun h => h
    rw [Function.update_apply] at hj
    split at hj
    · next hji =>
      subst hji
      obtain rfl := Option.some.inj hj
      exact ⟨errand, he, rfl, fun _ => hl⟩
    · exact ⟨e, hj, rfl, fun _ => hl⟩

theorem Carried.back {lines lines' : List (Owner × Line)} {outputs : List Output}
    (h : Carried lines outputs notes lines') {n : Nat} {o : Owner} {q : Line}
    (hq : lines'[n]? = some (o, q)) :
    ∃ p, lines[n]? = some (o, p) ∧ q = { p with commands := q.commands, held := q.held } ∧
      Line.Passes p (notes.filterMap (Note.use? n)) q := by
  have ho : ownerOf? lines n = some o := by
    rw [ownerOf?_eq, ← h.owners, ← ownerOf?_eq]
    exact ownerOf?_eq_some.mpr ⟨q, hq⟩
  obtain ⟨p, hp⟩ := ownerOf?_eq_some.mp ho
  obtain ⟨q', hq', hkeep, hpass⟩ := h.kept n o p hp
  obtain ⟨-, rfl⟩ := Prod.mk.inj (Option.some.inj (hq.symm.trans hq'))
  exact ⟨p, hp, hkeep, hpass⟩

theorem Carried.ownerOf?_eq {lines lines' : List (Owner × Line)} {outputs : List Output}
    (h : Carried lines outputs notes lines') (n : Nat) : ownerOf? lines' n = ownerOf? lines n := by
  rw [Session.ownerOf?_eq, Session.ownerOf?_eq, h.owners]

private theorem Wired.handles (w : Wired timeout v log) {input : Input} {outputs : List Output} {table : Table}
    {events : List (Nat × Event)} {lines : List (Owner × Line)}
    (hc : Change v.table input table outputs) (h : Carried v.lines outputs notes lines) :
    Wired timeout { v with lines, table, events } (log ++ stamp v.clock notes) where
  passes n o q hq := by
    obtain ⟨p, hp, -, hpass⟩ := h.back hq
    rw [traffic_append]
    exact (w.passes n o p hp).trans hpass
  within entry hm := by
    have hlen : lines.length = v.lines.length := by simpa using congrArg List.length h.owners
    rw [hlen]
    rcases List.mem_append.mp hm with hm | hm
    · exact w.within entry hm
    · obtain ⟨note, hn, rfl⟩ := List.mem_map.mp hm
      obtain ⟨n, k, c, rfl, ho, -⟩ := h.onlyQueue note hn
      obtain ⟨p, hp⟩ := ownerOf?_eq_some.mp ho
      exact (List.getElem?_eq_some_iff.mp hp).1
  past := w.past_append notes
  opened n o hn := by
    rw [h.ownerOf?_eq] at hn
    have hnone : ∀ note ∈ notes, note.opens = false := fun note hm => by
      obtain ⟨_, _, _, rfl, -⟩ := h.onlyQueue note hm
      rfl
    rw [openings_append_of_opens hnone, starts_append_of_opens hnone]
    exact w.opened n o hn
  wellFormed := hc.wellFormed w.wellFormed
  unique n m k hn hm := by
    rw [h.ownerOf?_eq] at hn hm
    exact w.unique n m k hn hm
  fresh n k hn := by
    rw [h.ownerOf?_eq] at hn
    exact Nat.lt_of_lt_of_le (w.fresh n k hn) hc.nextConnection_le
  listening hr n k q hq := by
    obtain ⟨p, hp, hkeep, -⟩ := h.back hq
    rw [hkeep]
    exact w.listening (hc.running_of hr) n k p hp
  errands id errand he := by
    obtain ⟨p, hp, hl⟩ := w.errands id errand he
    obtain ⟨q, hq, hkeep, -⟩ := h.kept _ _ p hp
    exact ⟨q, hq, hkeep ▸ hl⟩
  timeout := w.timeout

theorem Wired.befalls (w : Wired timeout v log) (h : Befalls v notes v') :
    Wired timeout v' (log ++ stamp v.clock notes) := by
  cases h with
  | passes hle =>
    rw [stamp, List.map_nil, List.append_nil]
    exact { w with past := fun entry h => Nat.le_trans (w.past entry h) hle }
  | @emits n o p e hp ha =>
    have hl : (p.emit e).1.listening = p.listening := by
      obtain ⟨_, hemit⟩ := p.emit_frame e
      rw [hemit]
    refine w.set hp ?_ (by simp [Note.line, Note.opens]) ?_ fun id errand h => ⟨errand, h, rfl, fun _ => hl ▸ fun h => h⟩
    · simpa using Line.Passes.refl.emit e ha
    · rintro k rfl hr
      rw [hl]
      exact w.listening hr n k p hp
  | @vanishes n o p hp =>
    refine w.set hp ?_ (by simp [Note.line, Note.opens]) ?_ fun id errand h => ⟨errand, h, rfl, fun _ h => h⟩
    · simpa using Line.Passes.refl.vanish
    · rintro k rfl hr
      exact w.listening hr n k p hp

theorem Wired.occurs (w : Wired timeout v log) (h : Occurs v notes v') :
    Wired timeout v' (log ++ stamp v.clock notes) := by
  cases h with
  | idle =>
    rw [stamp, List.map_nil, List.append_nil]
    exact w
  | @begins id script x next he hs =>
    refine w.snoc w.wellFormed (Nat.le_refl _) (fun h => h) (by simp) (by simp) (by simp) fun j errand h => ?_
    rw [Function.update_apply] at h
    split at h
    · next hj =>
      subst hj
      obtain rfl := Option.some.inj h
      exact .inr ⟨rfl, rfl⟩
    · exact .inl h
  | feeds he hp hn =>
    obtain ⟨-, -, -, hl, -⟩ := Line.nextEvent_ready hn
    exact w.carryOn _ he hp (by simpa using Line.Passes.refl.yield hn) hl ⟨rfl, rfl⟩
  | expires he hp => exact w.carryOn _ he hp .refl rfl ⟨rfl, rfl⟩
  | falls he hp _ => exact w.ends he hp (Line.Passes.refl.dropHandle.dropEvents) (by simp [Note.line, Note.opens])
  | @forwards n k p q e hr hp hn =>
    obtain ⟨-, -, -, hl, -⟩ := Line.nextEvent_ready hn
    refine w.set hp (by simpa using Line.Passes.refl.yield hn) (by simp [Note.line, Note.opens]) (fun _ _ hr => ?_)
      fun id errand h => ⟨errand, h, rfl, by simp⟩
    exact hl ▸ w.listening hr n k p hp
  | deafens hr hp hn =>
    exact w.set hp (by simpa using (Line.Passes.refl.yield hn).dropEvents) (by simp [Note.line, Note.opens])
      (by simp [hr]) fun id errand h => ⟨errand, h, rfl, by simp⟩
  | subscribes hno hc =>
    refine w.snoc (hc.wellFormed w.wellFormed) hc.nextConnection_le hc.running_of ?_ (by simp) (by simp)
      fun _ _ h => .inl h
    rintro k ⟨⟩
    exact ⟨rfl, hc.opened_lt List.mem_cons_self⟩
  | handles hc hev ho hcarried => exact w.handles hc hcarried

theorem Trace.wired (h : Trace timeout v log) : Wired timeout v log := by
  induction h with
  | start => exact .start timeout
  | act _ hb ih => exact ih.befalls hb
  | move _ ho ih => exact ih.occurs ho

/-! ### What waits on a line -/

/-- A connection that was opened is a line of its owner, and was opened for one channel. -/
theorem Wired.of_connected (w : Wired timeout v log) {t n : Nat} {owner : Owner} {c : String}
    (h : (t, .connected n owner c) ∈ log) :
    ownerOf? v.lines n = some owner ∧ openings n log = [(owner, c)] := by
  have hm : (owner, c) ∈ openings n log := List.mem_filterMap.mpr ⟨_, h, by simp⟩
  have hlt : n < v.lines.length := w.within _ h
  have ho : ownerOf? v.lines n = some v.lines[n].1 := ownerOf?_eq_some.mpr ⟨_, List.getElem?_eq_getElem hlt⟩
  obtain ⟨d, hd⟩ := (w.opened n _ ho).1
  rw [hd] at hm
  obtain ⟨rfl, rfl⟩ := Prod.mk.inj (List.mem_singleton.mp hm)
  exact ⟨ho, hd⟩

variable {s : Session α}

/-- As long as a line has a transport, what was queued on it is there to be sent. -/
theorem Logged.commands_eq (h : Logged timeout s log) {n : Nat} {o : Owner} {p : Line}
    (hp : s.lines[n]? = some (o, p)) (ha : p.attached) : p.commands = queued n log :=
  (h.trace.wired.passes n o p hp).told.commands ha

theorem Logged.commands_of_connected (h : Logged timeout s log) {t n : Nat} {owner : Owner} {c : String}
    (hm : (t, .connected n owner c) ∈ log) :
    ∃ p, s.lines[n]? = some (owner, p) ∧ (p.attached → p.commands = queued n log) := by
  obtain ⟨p, hp⟩ := ownerOf?_eq_some.mp (h.trace.wired.of_connected hm).1
  exact ⟨p, hp, h.commands_eq hp⟩

end RobotBridge.Session
