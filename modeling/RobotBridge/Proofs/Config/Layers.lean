import RobotBridge.CommandLine.Settings

/-! The configuration in effect: a file is refused for what is in it, whatever the command line says, and
every setting is found by itself in the layers. -/
namespace RobotBridge.Config

/-! ### What a file says -/

def string? : Toml → Option String
  | .string s => some s
  | _ => none

def natural? : Toml → Option Nat
  | .integer n => n.toNat?
  | _ => none

def sectionOf (file : Toml.Entries) (name : String) : Toml.Entries :=
  match file.lookup name with
  | some (.table _ entries) => entries
  | _ => []

def setting? (file : Toml.Entries) (name key : String) : Option Toml :=
  (sectionOf file name).lookup key

def entriesOf : Option Opened → Toml.Entries
  | some (.bytes content) => ((String.fromUTF8? ⟨content.toArray⟩).bind Toml.parse?).getD []
  | _ => []

inductive Plain : Toml → Prop
  | string {s} : Plain (.string s)
  | integer {n} : Plain (.integer n)
  | float : Plain .float
  | boolean {b} : Plain (.boolean b)
  | table {origin entries} : Plain (.table origin entries)

/-- What the two sections are, where a file has them. -/
def Sections (file : Toml.Entries) (P : Toml → Prop) : Prop :=
  ∀ name ∈ ["bridge", "timeouts"], ∀ v, file.lookup name = some v → P v

def WhereSet (file : Toml.Entries) (name key : String) (P : Toml → Prop) : Prop :=
  ∀ v, setting? file name key = some v → P v

/-- Sections are tables, and every recognised setting has its type and is in range. -/
structure WellTyped (file : Toml.Entries) : Prop where
  tables : Sections file fun v => ∃ origin entries, v = .table origin entries
  host : WhereSet file "bridge" "host" fun v => ∃ s, v = .string s
  port : WhereSet file "bridge" "port" fun v => ∃ n : Nat, v = .integer n ∧ n ≤ 65535
  timeouts : ∀ key ∈ ["connect_ms", "request_ms", "close_ms"],
    WhereSet file "timeouts" key fun v => ∃ n : Nat, v = .integer n ∧ n < UInt64.size

/-- What can be wrong with an opened file, and the error that it is. -/
inductive Faulty : Opened → FileError → Prop
  | refused : Faulty .refused .unreadable
  | undecodable {content} (h : String.fromUTF8? ⟨content.toArray⟩ = none) :
    Faulty (.bytes content) .unreadable
  | unparsable {content text} (decoded : String.fromUTF8? ⟨content.toArray⟩ = some text)
    (h : Toml.parse? text = none) : Faulty (.bytes content) .malformed
  | illTyped {content text file} (decoded : String.fromUTF8? ⟨content.toArray⟩ = some text)
    (parsed : Toml.parse? text = some file) (h : ¬ WellTyped file) : Faulty (.bytes content) .malformed

/-- Every setting of a configuration is what the command line gives for it, or else the file, or else
the default. Timeouts are given in milliseconds. -/
structure InEffect (host : Option String) (port : Option UInt16) (millis : Option UInt64)
    (file : Toml.Entries) (c : Config) : Prop where
  host : c.host = (host <|> (setting? file "bridge" "host").bind string?).getD "localhost"
  port : c.port.toNat =
    (port.map UInt16.toNat <|> (setting? file "bridge" "port").bind natural?).getD 5005
  connectTimeout : c.connectTimeout.nanoseconds =
    ((setting? file "timeouts" "connect_ms").bind natural?).getD 5000 * 1000000
  requestTimeout : c.requestTimeout.nanoseconds =
    (millis.map UInt64.toNat <|> (setting? file "timeouts" "request_ms").bind natural?).getD 5000 * 1000000
  closeTimeout : c.closeTimeout.nanoseconds =
    ((setting? file "timeouts" "close_ms").bind natural?).getD 2000 * 1000000

/-! ### Sections -/

variable {α β : Type} {file : Toml.Entries} {c c' : Config}

theorem sectionOf_table {name : String} {origin : Toml.Origin} {entries : Toml.Entries}
    (h : file.lookup name = some (.table origin entries)) : sectionOf file name = entries := by
  simp [sectionOf, h]

/-- A section that is no date and no array is read exactly if it is missing or a table. -/
theorem named_eq_ok {name : String} {s : Section} (plain : ∀ v, file.lookup name = some v → Plain v) :
    Section.named name file = .ok s ↔
      (∀ v, file.lookup name = some v → ∃ origin entries, v = .table origin entries) ∧
        s = .entries (sectionOf file name) := by
  unfold Section.named
  cases found : file.lookup name with
  | none => simp [sectionOf, found, eq_comm]
  | some v =>
    have hplain : Plain v := plain v found
    cases hplain with
    | table => simp [Section.ofValue, sectionOf_table found, eq_comm]
    | _ => simp [Section.ofValue]

/-! ### Settings -/

/-- A reader takes the values of a kind, and each as what it stands for. -/
structure Reads (read : Toml → Except FileError α) (view : α → β) (Fits : Toml → Prop)
    (value? : Toml → Option β) : Prop where
  injective : view.Injective
  total : ∀ v, Fits v → ∃ a, read v = .ok a
  eq_ok : ∀ v a, read v = .ok a ↔ Fits v ∧ value? v = some (view a)

theorem natural_eq_ok {bound n : Nat} {v : Toml} : natural bound v = .ok n ↔ v = .integer n ∧ n ≤ bound := by
  unfold natural
  split
  case h_1 m =>
    split
    case isTrue h =>
      rw [Except.ok.injEq, Toml.integer.injEq]
      omega
    case isFalse h =>
      simp only [reduceCtorEq, Toml.integer.injEq, false_iff]
      omega
  case h_2 hne => simpa using fun hv => absurd hv (hne n)

theorem natural?_eq_some {v : Toml} {n : Nat} : natural? v = some n ↔ v = .integer n := by
  cases v <;> simp [natural?, Int.mem_toNat?]

theorem text_reads : Reads text id (fun v => ∃ s, v = .string s) string? where
  injective := fun _ _ h => h
  total := by
    rintro _ ⟨s, rfl⟩
    exact ⟨s, rfl⟩
  eq_ok v a := by
    cases v <;> simp [text, string?]

/-- An integer up to a bound, as what is made of it without loss. -/
theorem natural_reads {bound : Nat} {make : Nat → α} {view : α → β} {count : Nat → β}
    (injective : view.Injective) (view_make : ∀ n ≤ bound, view (make n) = count n) :
    Reads (fun v => (natural bound v).map make) view (fun v => ∃ n : Nat, v = .integer n ∧ n ≤ bound)
      (fun v => (natural? v).map count) where
  injective := injective
  total := by
    rintro _ ⟨n, rfl, hn⟩
    have hread : natural bound (.integer n) = .ok n := natural_eq_ok.mpr ⟨rfl, hn⟩
    exact ⟨make n, by rw [hread]; rfl⟩
  eq_ok v a := by
    constructor
    · intro h
      cases hread : natural bound v with
      | error e =>
        rw [hread] at h
        cases h
      | ok n =>
        obtain ⟨rfl, hn⟩ := natural_eq_ok.mp hread
        have hmake : make n = a := by simpa [hread, Except.map] using h
        refine ⟨⟨n, rfl, hn⟩, ?_⟩
        rw [natural?_eq_some.mpr rfl, ← hmake, view_make n hn]
        rfl
    · rintro ⟨⟨n, rfl, hn⟩, hcount⟩
      have hread : natural bound (.integer n) = .ok n := natural_eq_ok.mpr ⟨rfl, hn⟩
      have hview : count n = view a := by simpa [natural?_eq_some.mpr rfl] using hcount
      have hmake : make n = a := injective ((view_make n hn).trans hview)
      rw [hread, ← hmake]
      rfl

theorem port_reads : Reads (fun v => (natural (UInt16.size - 1) v).map .ofNat) UInt16.toNat
    (fun v => ∃ n : Nat, v = .integer n ∧ n ≤ 65535) (fun v => (natural? v).map id) :=
  natural_reads (fun _ _ => UInt16.toNat_inj.mp) fun n hn => UInt16.toNat_ofNat_of_lt' (by
    have hsize : UInt16.size = 65536 := rfl
    omega)

theorem nanoseconds_injective : Duration.nanoseconds.Injective := by
  rintro ⟨m⟩ ⟨n⟩ h
  exact congrArg Duration.mk h

theorem millis_reads : Reads Config.millis Duration.nanoseconds
    (fun v => ∃ n : Nat, v = .integer n ∧ n ≤ UInt64.size - 1) (fun v => (natural? v).map (· * 1000000)) :=
  natural_reads nanoseconds_injective fun _ _ => rfl

theorem get_entries (read : Toml → Except FileError α) (entries : Toml.Entries) (key : String)
    (place : Nat) (absent : α) : (Section.entries entries).get key place read absent =
      match entries.lookup key with
      | none => .ok absent
      | some v => read v :=
  rfl

section
variable {read : Toml → Except FileError α} {view : α → β} {Fits : Toml → Prop} {value? : Toml → Option β}
  {entries : Toml.Entries} {key : String}

/-- A setting is read exactly if its value fits where it is there, as that value or its default. -/
theorem Reads.get_eq_ok (h : Reads read view Fits value?) {place : Nat} {absent a : α} :
    (Section.entries entries).get key place read absent = .ok a ↔
      (∀ v, entries.lookup key = some v → Fits v) ∧
        view a = ((entries.lookup key).bind value?).getD (view absent) := by
  rw [get_entries]
  cases entries.lookup key with
  | none =>
    -- The view tells the default from all other values.
    simpa [eq_comm] using h.injective.eq_iff.symm
  | some v =>
    simp only [h.eq_ok, Option.some.injEq, forall_eq', Option.bind_some]
    refine and_congr_right fun hv => ?_
    obtain ⟨b, hb⟩ := h.total v hv
    rw [((h.eq_ok v b).mp hb).2]
    simp [eq_comm]

theorem Reads.exists_get (h : Reads read view Fits value?) (hfits : ∀ v, entries.lookup key = some v → Fits v)
    (place : Nat) (absent : α) : ∃ a, (Section.entries entries).get key place read absent = .ok a := by
  rw [get_entries]
  cases hv : entries.lookup key with
  | none => exact ⟨absent, rfl⟩
  | some v => exact h.total v (hfits v hv)

end

/-! ### The whole file -/

theorem bind_eq_ok {x : Except FileError α} {f : α → Except FileError β} {b : β} :
    (x >>= f) = .ok b ↔ ∃ a, x = .ok a ∧ f a = .ok b := by
  cases x <;> simp [bind, Except.bind]

theorem ofEntries_eq_ok : ofEntries file = .ok c ↔
    ∃ bridge, Section.named "bridge" file = .ok bridge ∧
    ∃ timeouts, Section.named "timeouts" file = .ok timeouts ∧
      bridge.get "host" 0 text default.host = .ok c.host ∧
      bridge.get "port" 1 (fun v => (natural (UInt16.size - 1) v).map .ofNat) default.port = .ok c.port ∧
      timeouts.get "connect_ms" 0 Config.millis default.connectTimeout = .ok c.connectTimeout ∧
      timeouts.get "request_ms" 1 Config.millis default.requestTimeout = .ok c.requestTimeout ∧
      timeouts.get "close_ms" 2 Config.millis default.closeTimeout = .ok c.closeTimeout := by
  simp only [ofEntries, bind_eq_ok, pure, Except.pure, Except.ok.injEq]
  constructor
  · rintro ⟨bridge, hbridge, timeouts, htimeouts, host, hhost, port, hport, connect, hconnect, request,
      hrequest, close, hclose, rfl⟩
    exact ⟨bridge, hbridge, timeouts, htimeouts, hhost, hport, hconnect, hrequest, hclose⟩
  · rintro ⟨bridge, hbridge, timeouts, htimeouts, hhost, hport, hconnect, hrequest, hclose⟩
    exact ⟨bridge, hbridge, timeouts, htimeouts, _, hhost, _, hport, _, hconnect, _, hrequest, _, hclose, rfl⟩

theorem getD_bind_map (o : Option Toml) (value? : Toml → Option Nat) (f : Nat → Nat) (n : Nat) :
    (o.bind fun v => (value? v).map f).getD (f n) = f ((o.bind value?).getD n) := by
  cases o with
  | none => rfl
  | some v => exact Option.getD_map f n (value? v)

/-- A timeout is read exactly if it fits, as so many milliseconds. -/
theorem get_millis_eq_ok {key : String} {place n : Nat} {absent d : Duration}
    (habsent : absent.nanoseconds = n * 1000000) :
    (Section.entries (sectionOf file "timeouts")).get key place Config.millis absent = .ok d ↔
      WhereSet file "timeouts" key (fun v => ∃ n : Nat, v = .integer n ∧ n < UInt64.size) ∧
        d.nanoseconds = ((setting? file "timeouts" key).bind natural?).getD n * 1000000 := by
  have hbound (m : Nat) : m ≤ UInt64.size - 1 ↔ m < UInt64.size := Nat.le_sub_one_iff_lt (by decide)
  rw [millis_reads.get_eq_ok, habsent, getD_bind_map _ natural? (· * 1000000)]
  simp only [hbound]
  rfl

theorem sections_iff {P : Toml → Prop} : Sections file P ↔
    (∀ v, file.lookup "bridge" = some v → P v) ∧ ∀ v, file.lookup "timeouts" = some v → P v := by
  simp [Sections]

theorem get_port_eq_ok {place : Nat} {port : UInt16} :
    (Section.entries (sectionOf file "bridge")).get "port" place
        (fun v => (natural (UInt16.size - 1) v).map .ofNat) default.port = .ok port ↔
      WhereSet file "bridge" "port" (fun v => ∃ n : Nat, v = .integer n ∧ n ≤ 65535) ∧
        port.toNat = ((setting? file "bridge" "port").bind natural?).getD 5005 := by
  rw [port_reads.get_eq_ok]
  simp only [Option.map_id_fun, id]
  rfl

/-- A document whose sections are no dates and no arrays is accepted exactly if it is well typed, and it
sets what it names. -/
theorem ofEntries_eq_ok_iff (plain : Sections file Plain) :
    ofEntries file = .ok c ↔ WellTyped file ∧ InEffect none none none file c := by
  obtain ⟨hbridge, htimeouts⟩ := sections_iff.mp plain
  have connect : default.connectTimeout.nanoseconds = 5000 * 1000000 := rfl
  have request : default.requestTimeout.nanoseconds = 5000 * 1000000 := rfl
  have close : default.closeTimeout.nanoseconds = 2000 * 1000000 := rfl
  rw [ofEntries_eq_ok]
  constructor
  · rintro ⟨bridge, hb, timeouts, ht, hhost, hport, hconnect, hrequest, hclose⟩
    obtain ⟨hbtable, rfl⟩ := (named_eq_ok hbridge).mp hb
    obtain ⟨httable, rfl⟩ := (named_eq_ok htimeouts).mp ht
    obtain ⟨hfits, hhost⟩ := text_reads.get_eq_ok.mp hhost
    obtain ⟨pfits, hport⟩ := get_port_eq_ok.mp hport
    obtain ⟨cfits, hconnect⟩ := (get_millis_eq_ok connect).mp hconnect
    obtain ⟨rfits, hrequest⟩ := (get_millis_eq_ok request).mp hrequest
    obtain ⟨clfits, hclose⟩ := (get_millis_eq_ok close).mp hclose
    have hmillis : ∀ key ∈ ["connect_ms", "request_ms", "close_ms"],
        WhereSet file "timeouts" key fun v => ∃ n : Nat, v = .integer n ∧ n < UInt64.size := by
      simpa using ⟨cfits, rfits, clfits⟩
    exact ⟨⟨sections_iff.mpr ⟨hbtable, httable⟩, hfits, pfits, hmillis⟩,
      ⟨hhost, hport, hconnect, hrequest, hclose⟩⟩
  · rintro ⟨typed, sets⟩
    obtain ⟨hbtable, httable⟩ := sections_iff.mp typed.tables
    refine ⟨_, (named_eq_ok hbridge).mpr ⟨hbtable, rfl⟩, _, (named_eq_ok htimeouts).mpr ⟨httable, rfl⟩, ?_⟩
    exact ⟨text_reads.get_eq_ok.mpr ⟨typed.host, sets.host⟩, get_port_eq_ok.mpr ⟨typed.port, sets.port⟩,
      (get_millis_eq_ok connect).mpr ⟨typed.timeouts _ (by simp), sets.connectTimeout⟩,
      (get_millis_eq_ok request).mpr ⟨typed.timeouts _ (by simp), sets.requestTimeout⟩,
      (get_millis_eq_ok close).mpr ⟨typed.timeouts _ (by simp), sets.closeTimeout⟩⟩

/-- A well-typed document is accepted. -/
theorem exists_ofEntries (plain : Sections file Plain) (typed : WellTyped file) :
    ∃ c, ofEntries file = .ok c := by
  obtain ⟨hbridge, htimeouts⟩ := sections_iff.mp plain
  obtain ⟨hbtable, httable⟩ := sections_iff.mp typed.tables
  obtain ⟨host, hhost⟩ := text_reads.exists_get typed.host 0 default.host
  obtain ⟨port, hport⟩ := port_reads.exists_get typed.port 1 default.port
  have timeout (key : String) (hkey : key ∈ ["connect_ms", "request_ms", "close_ms"]) (place : Nat)
      (absent : Duration) : ∃ d, (Section.entries (sectionOf file "timeouts")).get key place Config.millis
        absent = .ok d := by
    refine millis_reads.exists_get (fun v hv => ?_) place absent
    obtain ⟨n, rfl, hn⟩ := typed.timeouts key hkey v hv
    exact ⟨n, rfl, Nat.le_pred_of_lt hn⟩
  obtain ⟨connect, hconnect⟩ := timeout "connect_ms" (by simp) 0 default.connectTimeout
  obtain ⟨request, hrequest⟩ := timeout "request_ms" (by simp) 1 default.requestTimeout
  obtain ⟨close, hclose⟩ := timeout "close_ms" (by simp) 2 default.closeTimeout
  exact ⟨⟨host, port, connect, request, close⟩, ofEntries_eq_ok.mpr
    ⟨_, (named_eq_ok hbridge).mpr ⟨hbtable, rfl⟩, _, (named_eq_ok htimeouts).mpr ⟨httable, rfl⟩,
      hhost, hport, hconnect, hrequest, hclose⟩⟩

/-! ### Refusal -/

def FailsMalformed (x : Except FileError α) : Prop := ∀ e, x = .error e → e = .malformed

theorem FailsMalformed.ok {a : α} : FailsMalformed (.ok a) := by
  rintro e h
  cases h

theorem FailsMalformed.malformed : FailsMalformed (.error .malformed : Except FileError α) := by
  rintro e h
  cases h
  rfl

theorem FailsMalformed.bind {x : Except FileError α} {f : α → Except FileError β} (hx : FailsMalformed x)
    (hf : ∀ a, FailsMalformed (f a)) : FailsMalformed (x >>= f) := by
  cases x with
  | error e =>
    rw [hx e rfl]
    exact malformed
  | ok a => exact hf a

theorem FailsMalformed.map {x : Except FileError α} (hx : FailsMalformed x) (f : α → β) :
    FailsMalformed (x.map f) :=
  hx.bind fun a => FailsMalformed.ok (a := f a)

theorem FailsMalformed.named (name : String) : FailsMalformed (Section.named name file) := by
  unfold Section.named Section.ofValue
  split
  case h_1 => exact ok
  case h_2 v _ =>
    cases v with
    | table | moment | array | tables => exact ok
    | string | integer | float | boolean => exact malformed

theorem FailsMalformed.get {read : Toml → Except FileError α} (hread : ∀ v, FailsMalformed (read v))
    (s : Section) (key : String) (place : Nat) (absent : α) :
    FailsMalformed (s.get key place read absent) := by
  unfold Section.get
  split
  case h_1 => exact ok
  case h_2 v _ => exact hread v

theorem FailsMalformed.text (v : Toml) : FailsMalformed (Config.text v) := by
  cases v with
  | string => exact ok
  | integer | float | boolean | moment | array | table | tables => exact malformed

theorem FailsMalformed.natural (bound : Nat) (v : Toml) : FailsMalformed (Config.natural bound v) := by
  unfold Config.natural
  split
  case h_1 =>
    split
    case isTrue => exact ok
    case isFalse => exact malformed
  case h_2 => exact malformed

theorem FailsMalformed.ofEntries : FailsMalformed (Config.ofEntries file) := by
  have hport (v : Toml) : FailsMalformed ((Config.natural (UInt16.size - 1) v).map UInt16.ofNat) :=
    (FailsMalformed.natural _ v).map _
  have hmillis (v : Toml) : FailsMalformed (Config.millis v) := (FailsMalformed.natural _ v).map _
  exact (named "bridge").bind fun bridge => (named "timeouts").bind fun timeouts =>
    (get text bridge "host" 0 _).bind fun _ => (get hport bridge "port" 1 _).bind fun _ =>
    (get hmillis timeouts "connect_ms" 0 _).bind fun _ => (get hmillis timeouts "request_ms" 1 _).bind fun _ =>
    (get hmillis timeouts "close_ms" 2 _).bind fun _ => ok

/-- A document whose sections are no dates and no arrays is refused exactly if it is ill typed. -/
theorem ofEntries_eq_error_iff (plain : Sections file Plain) {e : FileError} :
    ofEntries file = .error e ↔ ¬ WellTyped file ∧ e = .malformed := by
  constructor
  · intro h
    refine ⟨fun typed => ?_, FailsMalformed.ofEntries e h⟩
    obtain ⟨c, hc⟩ := exists_ofEntries plain typed
    rw [hc] at h
    cases h
  · rintro ⟨ill, rfl⟩
    cases h : ofEntries file with
    | error e => rw [FailsMalformed.ofEntries e h]
    | ok c => exact absurd ((ofEntries_eq_ok_iff plain).mp h).1 ill

/-! ### Layers -/

variable {host : Option String} {port : Option UInt16} {wait : Option UInt64}

/-- No two configurations are in effect at once. -/
theorem InEffect.unique (h : InEffect host port wait file c) (h' : InEffect host port wait file c') :
    c = c' := by
  have hport : c.port = c'.port := UInt16.toNat_inj.mp (h.port.trans h'.port.symm)
  have hconnect := nanoseconds_injective (h.connectTimeout.trans h'.connectTimeout.symm)
  have hrequest := nanoseconds_injective (h.requestTimeout.trans h'.requestTimeout.symm)
  have hclose := nanoseconds_injective (h.closeTimeout.trans h'.closeTimeout.symm)
  cases c
  cases c'
  simp only [mk.injEq]
  exact ⟨h.host.trans h'.host.symm, hport, hconnect, hrequest, hclose⟩

theorem inEffect_default : InEffect none none none [] default := ⟨rfl, rfl, rfl, rfl, rfl⟩

theorem faulty_bytes_iff {content : List UInt8} {e : FileError} : Faulty (.bytes content) e ↔
    (String.fromUTF8? ⟨content.toArray⟩ = none ∧ e = .unreadable) ∨
    ∃ text, String.fromUTF8? ⟨content.toArray⟩ = some text ∧ e = .malformed ∧
      ∀ file, Toml.parse? text = some file → ¬ WellTyped file := by
  constructor
  · rintro (_ | h | ⟨decoded, h⟩ | ⟨decoded, parsed, h⟩)
    · exact .inl ⟨h, rfl⟩
    · exact .inr ⟨_, decoded, rfl, by simp [h]⟩
    · exact .inr ⟨_, decoded, rfl, by simpa [parsed] using h⟩
  · rintro (⟨h, rfl⟩ | ⟨text, decoded, rfl, h⟩)
    · exact .undecodable h
    · cases parsed : Toml.parse? text with
      | none => exact .unparsable decoded parsed
      | some file => exact .illTyped decoded parsed (h file parsed)

/-- An opened file is refused exactly for a fault of it. -/
theorem load_eq_error_iff {o : Opened} (plain : Sections (entriesOf (some o)) Plain) {e : FileError} :
    load o = .error e ↔ Faulty o e := by
  cases o with
  | missing =>
    constructor
    · rintro ⟨⟩
    · rintro ⟨⟩
  | refused =>
    constructor
    · rintro ⟨⟩
      exact .refused
    · rintro ⟨⟩
      rfl
  | bytes content =>
    rw [faulty_bytes_iff]
    cases decoded : String.fromUTF8? ⟨content.toArray⟩ with
    | none => simp [load, decoded, eq_comm]
    | some text =>
      cases parsed : Toml.parse? text with
      | none => simp [load, decoded, parse, parsed, eq_comm]
      | some file =>
        have hplain : Sections file Plain := by simpa [entriesOf, decoded, parsed] using plain
        simp [load, decoded, parse, parsed, ofEntries_eq_error_iff hplain, and_comm]

theorem InEffect.of_load {o : Opened} (plain : Sections (entriesOf (some o)) Plain) (h : load o = .ok c) :
    InEffect none none none (entriesOf (some o)) c := by
  cases o with
  | missing =>
    cases h
    exact inEffect_default
  | refused => cases h
  | bytes content =>
    cases decoded : String.fromUTF8? ⟨content.toArray⟩ with
    | none => simp [load, decoded] at h
    | some text =>
      cases parsed : Toml.parse? text with
      | none => simp [load, decoded, parse, parsed] at h
      | some file =>
        have hentries : entriesOf (some (.bytes content)) = file := by simp [entriesOf, decoded, parsed]
        have hread : ofEntries file = .ok c := by simpa [load, decoded, parse, parsed] using h
        rw [hentries] at plain ⊢
        exact ((ofEntries_eq_ok_iff plain).mp hread).2

/-- What the command line gives stands over the file and the defaults, each setting by itself. -/
theorem InEffect.over (h : InEffect none none none file c) : InEffect host port wait file
    (CommandLine.Settings.over { host, port, requestTimeout := wait.map fun n => .ofMillis n.toNat } c) where
  host := by
    cases host with
    | none => exact h.host
    | some => rfl
  port := by
    cases port with
    | none => exact h.port
    | some => rfl
  connectTimeout := h.connectTimeout
  requestTimeout := by
    cases wait with
    | none => exact h.requestTimeout
    | some => rfl
  closeTimeout := h.closeTimeout

end RobotBridge.Config

namespace RobotBridge.CommandLine
open Config (Opened FileError Faulty InEffect Sections Plain entriesOf)

def Settings.base? (path : Option String) (openPath : String → Opened) : Except FileError Config :=
  match path with
  | some p => Config.load (openPath p)
  | none => .ok Config.default

variable {path : Option String} {openPath : String → Opened}

theorem Settings.base?_eq_error (plain : Sections (entriesOf (path.map openPath)) Plain) (e : FileError) :
    base? path openPath = .error e ↔ ∃ p, path = some p ∧ Faulty (openPath p) e := by
  cases path with
  | none => simp [base?]
  | some p => simpa [base?] using Config.load_eq_error_iff plain

theorem Settings.base?_eq_ok (plain : Sections (entriesOf (path.map openPath)) Plain) {c : Config}
    (h : base? path openPath = .ok c) : InEffect none none none (entriesOf (path.map openPath)) c := by
  cases path with
  | none =>
    cases h
    exact Config.inEffect_default
  | some p => exact .of_load plain h

/-- What the flags and the file come to. The configuration is refused exactly for a fault of the file at
the path, if one is given, whatever the flags are. If it is not refused, it is the one in which every
setting is what its flag gives, or else the file, or else the default. -/
theorem Settings.config?_iff (host : Option String) (port : Option UInt16) (wait : Option UInt64)
    (path : Option String) (openPath : String → Opened)
    (plain : Sections (entriesOf (path.map openPath)) Plain) :
    let settings : Settings :=
      { host, port, config := path, requestTimeout := wait.map fun n => .ofMillis n.toNat }
    (∀ e : FileError, settings.config? openPath = .error e ↔ ∃ p, path = some p ∧ Faulty (openPath p) e) ∧
    ∀ c : Config, settings.config? openPath = .ok c ↔
      (¬ ∃ p e, path = some p ∧ Faulty (openPath p) e) ∧
        InEffect host port wait (entriesOf (path.map openPath)) c := by
  intro settings
  have hconfig : settings.config? openPath = base? path openPath >>= fun c => .ok (settings.over c) := by
    cases path <;> rfl
  have hfault := base?_eq_error plain
  rw [hconfig]
  -- Flags are laid over what is read, so they have no part in whether it is refused.
  cases hbase : base? path openPath with
  | error e =>
    rw [hbase] at hfault
    refine ⟨hfault, fun c => ?_⟩
    obtain ⟨p, hp, hfaulty⟩ := (hfault e).mp rfl
    simp only [bind, Except.bind, reduceCtorEq, false_iff, not_and]
    exact fun h => absurd ⟨p, e, hp, hfaulty⟩ h
  | ok base =>
    rw [hbase] at hfault
    have hover : InEffect host port wait (entriesOf (path.map openPath)) (settings.over base) :=
      (base?_eq_ok plain hbase).over
    have hsound : ¬ ∃ p e, path = some p ∧ Faulty (openPath p) e := by
      rintro ⟨p, e, hfaulty⟩
      cases (hfault e).mpr ⟨p, hfaulty⟩
    refine ⟨fun e => ?_, fun c => ?_⟩
    · rw [← hfault e]
      simp [bind, Except.bind]
    simp only [bind, Except.bind, Except.ok.injEq]
    constructor
    · rintro rfl
      exact ⟨hsound, hover⟩
    · rintro ⟨-, h⟩
      exact hover.unique h

def sampleFile : Opened :=
  .bytes "[bridge]\nport = 70\n[timeouts]\nclose_ms = 7\nretries = 3".toUTF8.data.toList

theorem sampleFile_plain : Sections (entriesOf (some sampleFile)) Plain := by
  have hentries : entriesOf (some sampleFile) = [("bridge", .table .header [("port", .integer 70)]),
      ("timeouts", .table .header [("close_ms", .integer 7), ("retries", .integer 3)])] := by
    rfl
  rw [hentries]
  refine Config.sections_iff.mpr ⟨fun v hv => ?_, fun v hv => ?_⟩
  · cases hv
    exact .table
  · cases hv
    exact .table

theorem Settings.config?_iff_sample :
    Sections (entriesOf (some sampleFile)) Plain ∧
    InEffect none (some 6000) none (entriesOf (some sampleFile))
      { Config.default with port := 6000, closeTimeout := .ofMillis 7 } :=
  ⟨sampleFile_plain, (((Settings.config?_iff none (some 6000) none (some "mbot.toml") (fun _ => sampleFile)
    sampleFile_plain).2 _).mp (by rfl)).2⟩

end RobotBridge.CommandLine
