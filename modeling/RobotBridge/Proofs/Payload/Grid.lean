import RobotBridge.Payload.Grid
import RobotBridge.Proofs.Base64
import RobotBridge.Proofs.Json.Record

/-! Which documents are occupancy grids, what becomes of the bytes of their cells, and which of two
errors refuses the others. -/
namespace RobotBridge.OccupancyGrid
open Json Base64
open Numeric (Single Double Layout)

/-! ### Fields -/

def fieldNames : List String :=
  ["width", "height", "meters_per_cell", "origin_x", "origin_y", "num_cells", "cells"]

/-- What a document has in a field: an object under its name, an array of seven items in its place. -/
def field? (j : Json) (name : String) : Option Json := (membersOf? fieldNames j).bind (List.lookup name)

/-- A number stands for a measure, which is rounded once. -/
inductive Measures : Json → Single → Prop
  | integer (n : Int) : Measures (.integer n) (.ofInt n)
  | double (x : Double) : Measures (.double x) x.convert

structure Sends (j : Json) (g : OccupancyGrid) (text : String) : Prop where
  width : field? j "width" = some (.integer g.width.toNat)
  height : field? j "height" = some (.integer g.height.toNat)
  metersPerCell : ∃ v, field? j "meters_per_cell" = some v ∧ Measures v g.metersPerCell
  originX : ∃ v, field? j "origin_x" = some v ∧ Measures v g.originX
  originY : ∃ v, field? j "origin_y" = some v ∧ Measures v g.originY
  numCells : field? j "num_cells" = some (.integer g.numCells.toNat)
  cells : field? j "cells" = some (.string text)

/-- Every field is there and of its type; a size is an integer of 64 bits and no double. -/
structure WellTyped (j : Json) : Prop where
  sizes : ∀ name ∈ ["width", "height", "num_cells"],
    ∃ n : Nat, n < UInt64.size ∧ field? j name = some (.integer n)
  measures : ∀ name ∈ ["meters_per_cell", "origin_x", "origin_y"],
    (∃ n, field? j name = some (.integer n)) ∨ ∃ x, field? j name = some (.double x)
  cells : ∃ text, field? j "cells" = some (.string text)

theorem Sends.withCells {j : Json} {g : OccupancyGrid} {text : String} (h : Sends j g text) (cells : List Int8) :
    Sends j { g with cells } text :=
  ⟨h.width, h.height, h.metersPerCell, h.originX, h.originY, h.numCells, h.cells⟩

theorem Sends.text_eq {j : Json} {g : OccupancyGrid} {text text' : String} (h : Sends j g text)
    (h' : field? j "cells" = some (.string text')) : text = text' :=
  Json.string.inj (Option.some.inj (h.cells.symm.trans h'))

theorem exists_measures {found : Option Json} : (∃ x v, found = some v ∧ Measures v x) ↔
    (∃ n, found = some (.integer n)) ∨ ∃ x, found = some (.double x) := by
  constructor
  · rintro ⟨_, _, rfl, ⟨n⟩ | ⟨x⟩⟩
    · exact .inl ⟨n, rfl⟩
    · exact .inr ⟨x, rfl⟩
  · rintro (⟨n, rfl⟩ | ⟨x, rfl⟩)
    · exact ⟨_, _, rfl, .integer n⟩
    · exact ⟨_, _, rfl, .double x⟩

theorem exists_size {found : Option Json} : (∃ n : UInt64, found = some (.integer n.toNat)) ↔
    ∃ n : Nat, n < UInt64.size ∧ found = some (.integer n) := by
  constructor
  · rintro ⟨n, h⟩
    exact ⟨n.toNat, n.toNat_lt, h⟩
  · rintro ⟨n, hn, h⟩
    refine ⟨.ofNat n, ?_⟩
    rw [UInt64.toNat_ofNat_of_lt' hn]
    exact h

theorem exists_sends {j : Json} : (∃ g text, Sends j g text) ↔ WellTyped j := by
  constructor
  · rintro ⟨g, text, h⟩
    refine ⟨?_, ?_, ⟨text, h.cells⟩⟩
    · intro name hname
      apply exists_size.mp
      simp only [List.mem_cons, List.not_mem_nil, or_false] at hname
      rcases hname with rfl | rfl | rfl
      · exact ⟨_, h.width⟩
      · exact ⟨_, h.height⟩
      · exact ⟨_, h.numCells⟩
    · intro name hname
      apply exists_measures.mp
      simp only [List.mem_cons, List.not_mem_nil, or_false] at hname
      rcases hname with rfl | rfl | rfl
      · exact ⟨_, h.metersPerCell⟩
      · exact ⟨_, h.originX⟩
      · exact ⟨_, h.originY⟩
  · intro h
    obtain ⟨w, hw⟩ := exists_size.mpr (h.sizes "width" (by simp))
    obtain ⟨k, hk⟩ := exists_size.mpr (h.sizes "height" (by simp))
    obtain ⟨n, hn⟩ := exists_size.mpr (h.sizes "num_cells" (by simp))
    obtain ⟨m, hm⟩ := exists_measures.mpr (h.measures "meters_per_cell" (by simp))
    obtain ⟨x, hx⟩ := exists_measures.mpr (h.measures "origin_x" (by simp))
    obtain ⟨y, hy⟩ := exists_measures.mpr (h.measures "origin_y" (by simp))
    obtain ⟨text, htext⟩ := h.cells
    exact ⟨⟨w, k, m, x, y, n, []⟩, text, hw, hk, hm, hx, hy, hn, htext⟩

theorem single_eq_ok {j : Json} {x : Single} : Decoder.single j = .ok x ↔ Measures j x := by
  constructor
  · intro h
    unfold Decoder.single at h
    split at h
    case h_1 n =>
      obtain rfl := Except.ok.inj h
      exact .integer n
    case h_2 x =>
      obtain rfl := Except.ok.inj h
      exact .double x
    case h_3 => contradiction
  · intro h
    cases h with
    | integer n => rfl
    | double x => rfl

theorem field?_eq {j : Json} {members : List (String × Json)} (h : membersOf? fieldNames j = some members)
    (name : String) : field? j name = members.lookup name := by
  rw [field?, h, Option.bind_some]

theorem sent_eq_ok {j : Json} {g : OccupancyGrid} {text : String}
    (hord : ∀ members, j = .object members → Ascending members) :
    sent j = .ok (g, text) ↔ Sends j g text ∧ g.cells = [] := by
  refine (record_mandatory_eq_ok ?_ hord).trans ?_
  · exact .seq (.seq (.seq (.seq (.seq (.seq (.map .required) .required (by decide)) .required (by decide))
      .required (by decide)) .required (by decide)) .required (by decide)) .required (by decide)
  · simp only [Fields.seq_eq_ok, Fields.map_eq_ok, Fields.required_eq_ok, Decoder.size_eq_ok, Decoder.string_eq_ok,
      single_eq_ok, exists_eq_right]
    constructor
    · rintro ⟨members, hmembers, _, _, ⟨_, n, ⟨_, y, ⟨_, x, ⟨_, m, ⟨_, k, ⟨w, hw, rfl⟩, hk, rfl⟩, hm, rfl⟩, hx,
        rfl⟩, hy, rfl⟩, hn, rfl⟩, htext, heq⟩
      obtain ⟨rfl, rfl⟩ := Prod.mk.inj heq
      have hfield := field?_eq hmembers
      rw [← hfield] at hw hk hm hx hy hn htext
      exact ⟨⟨hw, hk, hm, hx, hy, hn, htext⟩, rfl⟩
    · rintro ⟨⟨hw, hk, hm, hx, hy, hn, htext⟩, hcells⟩
      obtain ⟨members, hmembers, -⟩ := Option.bind_eq_some_iff.mp htext
      simp only [field?_eq hmembers] at hw hk hm hx hy hn htext
      obtain ⟨w, k, m, x, y, n, cells⟩ := g
      obtain rfl := hcells
      exact ⟨members, hmembers, _, text, ⟨_, n, ⟨_, y, ⟨_, x, ⟨_, m, ⟨_, k, ⟨w, hw, rfl⟩, hk, rfl⟩, hm, rfl⟩, hx,
        rfl⟩, hy, rfl⟩, hn, rfl⟩, htext, rfl⟩

/-! ### Cells -/

/-- The cells that bytes are: a byte from 128 on is a cell below zero. -/
structure Signed (bytes : List UInt8) (cells : List Int8) : Prop where
  length : cells.length = bytes.length
  cell : ∀ (i : Nat) (b : UInt8) (c : Int8), bytes[i]? = some b → cells[i]? = some c →
    c.toInt = if b.toNat < 128 then (b.toNat : Int) else b.toNat - 256

theorem toInt_toInt8 (b : UInt8) : b.toInt8.toInt = if b.toNat < 128 then (b.toNat : Int) else b.toNat - 256 := by
  have hbits : b.toInt8.toInt = b.toBitVec.toInt := rfl
  have hhalf : 2 * b.toNat < 2 ^ 8 ↔ b.toNat < 128 := by omega
  rw [hbits, BitVec.toInt_eq_toNat_cond, UInt8.toNat_toBitVec]
  simp only [hhalf]
  rfl

theorem signed_iff {bytes : List UInt8} {cells : List Int8} :
    Signed bytes cells ↔ cells = bytes.map UInt8.toInt8 := by
  constructor
  · intro h
    apply List.ext_getElem?
    intro i
    rw [List.getElem?_map]
    rcases hb : bytes[i]? with _ | b
    · have hlast := List.getElem?_eq_none_iff.mp hb
      rw [Option.map_none, List.getElem?_eq_none_iff, h.length]
      exact hlast
    · obtain ⟨hi, -⟩ := List.getElem?_eq_some_iff.mp hb
      have hc := List.getElem?_eq_getElem (h.length ▸ hi : i < cells.length)
      rw [hc, Option.map_some, Option.some.injEq, ← Int8.toInt_inj, h.cell i b _ hb hc, toInt_toInt8]
  · rintro rfl
    refine ⟨List.length_map _, ?_⟩
    intro i b c hb hc
    rw [List.getElem?_map, hb] at hc
    obtain rfl := Option.some.inj hc
    exact toInt_toInt8 b

/-- Cells turned into bytes and written give the text that was read. -/
theorem encode_cells {bytes : List UInt8} {cells : List Int8} {text : List Char} (hcells : Signed bytes cells)
    (htext : Canonical bytes text) : encode (cells.map Int8.toUInt8) = text := by
  have hback : Int8.toUInt8 ∘ UInt8.toInt8 = id := funext UInt8.toUInt8_toInt8
  rw [signed_iff.mp hcells, List.map_map, hback, List.map_id, canonical_iff.mp htext]

/-! ### Counts -/

def occupiedBytes (bytes : List UInt8) : Nat := bytes.countP fun b => 1 ≤ b.toNat ∧ b.toNat ≤ 127

def freeBytes (bytes : List UInt8) : Nat := bytes.countP fun b => 128 ≤ b.toNat ∧ b.toNat ≤ 255

def unknownBytes (bytes : List UInt8) : Nat := bytes.countP fun b => b.toNat = 0

theorem bytes_counted (bytes : List UInt8) :
    occupiedBytes bytes + freeBytes bytes + unknownBytes bytes = bytes.length := by
  induction bytes with
  | nil => rfl
  | cons b bytes ih =>
    have hb := b.toNat_lt
    unfold occupiedBytes freeBytes unknownBytes at ih ⊢
    simp only [List.countP_cons, List.length_cons, decide_eq_true_eq]
    split <;> split <;> split <;> omega

theorem toInt8_pos (b : UInt8) : 0 < b.toInt8 ↔ 1 ≤ b.toNat ∧ b.toNat ≤ 127 := by
  have hb := b.toNat_lt
  rw [Int8.lt_iff_toInt_lt, toInt_toInt8, Int8.toInt_zero]
  split <;> omega

theorem toInt8_neg (b : UInt8) : b.toInt8 < 0 ↔ 128 ≤ b.toNat ∧ b.toNat ≤ 255 := by
  have hb := b.toNat_lt
  rw [Int8.lt_iff_toInt_lt, toInt_toInt8, Int8.toInt_zero]
  split <;> omega

theorem countP_cells (bytes : List UInt8) {p : Int8 → Prop} {q : UInt8 → Prop} [DecidablePred p] [DecidablePred q]
    (h : ∀ b, p b.toInt8 ↔ q b) : (bytes.map UInt8.toInt8).countP (p ·) = bytes.countP (q ·) := by
  rw [List.countP_map]
  apply List.countP_congr
  intro b _
  simp [h]

def summaryWith (g : OccupancyGrid) (occupied free unknown : Nat) : String :=
  toString g.width.toNat ++ "x" ++ toString g.height.toNat ++ " cells at " ++
    Layout.prose g.metersPerCell ++ " m/cell, origin (" ++ Layout.prose g.originX ++ ", " ++
    Layout.prose g.originY ++ "); " ++ toString occupied ++ " occupied, " ++ toString free ++ " free, " ++
    toString unknown ++ " unknown"

theorem summary_eq {g : OccupancyGrid} {bytes : List UInt8} (hcells : Signed bytes g.cells) :
    g.summary = g.summaryWith (occupiedBytes bytes) (freeBytes bytes) (unknownBytes bytes) := by
  have hoccupied : g.cells.countP (0 < ·) = occupiedBytes bytes := by
    rw [signed_iff.mp hcells]
    exact countP_cells bytes toInt8_pos
  have hfree : g.cells.countP (· < 0) = freeBytes bytes := by
    rw [signed_iff.mp hcells]
    exact countP_cells bytes toInt8_neg
  have hunknown : g.cells.length - occupiedBytes bytes - freeBytes bytes = unknownBytes bytes := by
    have hcounted := bytes_counted bytes
    rw [hcells.length]
    omega
  change g.summaryWith (g.cells.countP (0 < ·)) (g.cells.countP (· < 0))
    (g.cells.length - g.cells.countP (0 < ·) - g.cells.countP (· < 0)) = _
  rw [hoccupied, hfree, hunknown]

/-! ### Reading -/

section Reading

variable {j : Json} (hord : ∀ members, j = .object members → Ascending members)
include hord

section Sends

variable {g : OccupancyGrid} {text : String} (h : Sends j g text)
include h

theorem ofJson_of_decode {bytes : List UInt8} (hread : decode text.toList = some bytes) :
    ofJson j = .ok { g with cells := bytes.map UInt8.toInt8 } := by
  have hsent : sent j = .ok ({ g with cells := [] }, text) := (sent_eq_ok hord).mpr ⟨h.withCells [], rfl⟩
  simp only [ofJson, hsent, hread]

theorem ofJson_of_decode_eq_none (hread : decode text.toList = none) : ofJson j = .error .cells := by
  have hsent : sent j = .ok ({ g with cells := [] }, text) := (sent_eq_ok hord).mpr ⟨h.withCells [], rfl⟩
  simp only [ofJson, hsent, hread]

end Sends

/-- Without a field, or with one of another type, the text of the cells is not looked at. -/
theorem ofJson_of_not_wellTyped (h : ¬WellTyped j) : ∃ e, ofJson j = .error (.shape e) := by
  cases hsent : sent j with
  | error e =>
    refine ⟨e, ?_⟩
    rw [ofJson, hsent]
  | ok read =>
    obtain ⟨hsends, -⟩ := (sent_eq_ok hord).mp hsent
    exact absurd (exists_sends.mp ⟨_, _, hsends⟩) h

theorem ofJson_eq_ok {g : OccupancyGrid} : ofJson j = .ok g ↔
    ∃ text bytes, Sends j g text ∧ Canonical bytes text.toList ∧ Signed bytes g.cells := by
  constructor
  · intro h
    by_cases htyped : WellTyped j
    · obtain ⟨g', text, hsends⟩ := exists_sends.mpr htyped
      cases hread : decode text.toList with
      | none =>
        rw [ofJson_of_decode_eq_none hord hsends hread] at h
        contradiction
      | some bytes =>
        rw [ofJson_of_decode hord hsends hread] at h
        obtain rfl := Except.ok.inj h
        exact ⟨text, bytes, hsends.withCells _, decode_eq_some_iff.mp hread, signed_iff.mpr rfl⟩
    · obtain ⟨e, he⟩ := ofJson_of_not_wellTyped hord htyped
      rw [he] at h
      contradiction
  · rintro ⟨text, bytes, hsends, htext, hcells⟩
    rw [ofJson_of_decode hord hsends (decode_eq_some_iff.mpr htext), ← signed_iff.mp hcells]

theorem ofJson_eq_cells : ofJson j = .error .cells ↔
    ∃ g text, Sends j g text ∧ ¬∃ bytes, Canonical bytes text.toList := by
  constructor
  · intro h
    by_cases htyped : WellTyped j
    · obtain ⟨g, text, hsends⟩ := exists_sends.mpr htyped
      refine ⟨g, text, hsends, ?_⟩
      rintro ⟨bytes, htext⟩
      rw [ofJson_of_decode hord hsends (decode_eq_some_iff.mpr htext)] at h
      contradiction
    · obtain ⟨e, he⟩ := ofJson_of_not_wellTyped hord htyped
      rw [he] at h
      cases h
  · rintro ⟨g, text, hsends, hnone⟩
    have hread : decode text.toList = none := by
      apply Option.eq_none_iff_forall_ne_some.mpr
      intro bytes hbytes
      exact hnone ⟨bytes, decode_eq_some_iff.mp hbytes⟩
    exact ofJson_of_decode_eq_none hord hsends hread

theorem ofJson_eq_shape : (∃ e, ofJson j = .error (.shape e)) ↔ ¬WellTyped j := by
  constructor
  · rintro ⟨e, he⟩ htyped
    obtain ⟨g, text, hsends⟩ := exists_sends.mpr htyped
    cases hread : decode text.toList with
    | none =>
      rw [ofJson_of_decode_eq_none hord hsends hread] at he
      cases he
    | some bytes =>
      rw [ofJson_of_decode hord hsends hread] at he
      cases he
  · exact ofJson_of_not_wellTyped hord

end Reading

/-- What becomes of a document; an object has each key once and in order, as every object there is.
It is a grid exactly when every field is well typed and the cells are the canonical text of some bytes;
a field that is not well typed is one error, whatever the text of the cells, and a text that is not
canonical the other. The cells of a grid are these bytes, signed, and give back the text; the summary
counts the bytes in three ranges, which are all there are. -/
theorem ofJson_decides (j : Json) (hord : ∀ members, j = .object members → Ascending members) :
    ((∃ g, ofJson j = .ok g) ↔
      WellTyped j ∧ ∃ text bytes, field? j "cells" = some (.string text) ∧ Canonical bytes text.toList) ∧
    ((∃ e, ofJson j = .error (.shape e)) ↔ ¬WellTyped j) ∧
    (ofJson j = .error .cells ↔
      WellTyped j ∧ ∀ text, field? j "cells" = some (.string text) → ¬∃ bytes, Canonical bytes text.toList) ∧
    (∀ g, ofJson j = .ok g ↔
      ∃ text bytes, Sends j g text ∧ Canonical bytes text.toList ∧ Signed bytes g.cells) ∧
    ∀ g text bytes, ofJson j = .ok g → field? j "cells" = some (.string text) → Canonical bytes text.toList →
      encode (g.cells.map Int8.toUInt8) = text.toList ∧
      g.summary = g.summaryWith (occupiedBytes bytes) (freeBytes bytes) (unknownBytes bytes) ∧
      occupiedBytes bytes + freeBytes bytes + unknownBytes bytes = bytes.length := by
  refine ⟨?_, ofJson_eq_shape hord, ?_, fun g => ofJson_eq_ok hord, ?_⟩
  · constructor
    · rintro ⟨g, hg⟩
      obtain ⟨text, bytes, hsends, htext, -⟩ := (ofJson_eq_ok hord).mp hg
      exact ⟨exists_sends.mp ⟨g, text, hsends⟩, text, bytes, hsends.cells, htext⟩
    · rintro ⟨htyped, text, bytes, hfield, htext⟩
      obtain ⟨g, text', hsends⟩ := exists_sends.mpr htyped
      obtain rfl := hsends.text_eq hfield
      exact ⟨_, (ofJson_eq_ok hord).mpr ⟨text', bytes, hsends.withCells _, htext, signed_iff.mpr rfl⟩⟩
  · rw [ofJson_eq_cells hord]
    constructor
    · rintro ⟨g, text, hsends, hnone⟩
      refine ⟨exists_sends.mp ⟨g, text, hsends⟩, ?_⟩
      intro text' hfield
      obtain rfl := hsends.text_eq hfield
      exact hnone
    · rintro ⟨htyped, hnone⟩
      obtain ⟨g, text, hsends⟩ := exists_sends.mpr htyped
      exact ⟨g, text, hsends, hnone text hsends.cells⟩
  · intro g text bytes hg hfield htext
    obtain ⟨text', bytes', hsends, htext', hcells⟩ := (ofJson_eq_ok hord).mp hg
    obtain rfl := hsends.text_eq hfield
    obtain rfl := htext.bytes_eq htext'
    exact ⟨encode_cells hcells htext, summary_eq hcells, bytes_counted bytes⟩

def twoCells : List (String × Json) :=
  [("cells", .string "AP8="), ("height", .integer 1), ("meters_per_cell", .integer 0), ("num_cells", .integer 2),
    ("origin_x", .integer (-1)), ("origin_y", .integer 2), ("slam_mode", .string "idle"), ("width", .integer 2)]

def twoCellGrid : OccupancyGrid := ⟨2, 1, .ofInt 0, .ofInt (-1), .ofInt 2, 2, [0, -1]⟩

theorem ofJson_decides_twoCells : Ascending twoCells ∧ ofJson (.object twoCells) = .ok twoCellGrid ∧
    twoCellGrid.summary = twoCellGrid.summaryWith 0 1 1 := by
  have hord : Ascending twoCells := by
    unfold Ascending
    decide
  have hmembers : ∀ members, Json.object twoCells = .object members → Ascending members := by
    rintro members ⟨⟩
    exact hord
  obtain ⟨-, -, -, hok, hgrid⟩ := ofJson_decides (.object twoCells) hmembers
  have hsends : Sends (.object twoCells) twoCellGrid "AP8=" :=
    ⟨rfl, rfl, ⟨_, rfl, .integer 0⟩, ⟨_, rfl, .integer (-1)⟩, ⟨_, rfl, .integer 2⟩, rfl, rfl⟩
  have htext : Canonical [0, 255] "AP8=".toList := canonical_encode [0, 255]
  have hread : ofJson (.object twoCells) = .ok twoCellGrid :=
    (hok _).mpr ⟨"AP8=", [0, 255], hsends, htext, signed_iff.mpr rfl⟩
  obtain ⟨-, hsummary, -⟩ := hgrid _ _ _ hread rfl htext
  exact ⟨hord, hread, hsummary⟩

end RobotBridge.OccupancyGrid
