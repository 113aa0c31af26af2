import RobotBridge.Base64
import RobotBridge.Json.Record

/-! Occupancy grids: log-odds, row by row. The server sends the cells as bytes in base 64, and nothing
ties their number to width and height. Arithmetic on words is checked, so the index of a cell can be a
fault. -/
namespace RobotBridge

open Numeric (Single Layout)
open Json (Fields Decoder DecodeError)

inductive Fault where
  /-- A number beyond its word. -/
  | overflow
deriving DecidableEq

def checked (n : Nat) : Except Fault UInt64 :=
  if h : n < UInt64.size then .ok (.ofNatLT n h) else .error .overflow

structure OccupancyGrid where
  width : UInt64
  height : UInt64
  metersPerCell : Single
  originX : Single
  originY : Single
  numCells : UInt64
  cells : List Int8
deriving DecidableEq, Inhabited

inductive PayloadError where
  | shape (error : DecodeError)
  | cells

namespace PayloadError

def message : PayloadError → String
  | shape error => "payload does not match the expected type: " ++ error.message
  | cells => "map cells are not valid base64"

end PayloadError

namespace OccupancyGrid

/-- The fields as they are sent: a grid without cells, and the text of its cells. -/
def sent : Decoder (OccupancyGrid × String) :=
  .record "RawOccupancyGrid" ((fun w h m x y n cells => (⟨w, h, m, x, y, n, []⟩, cells))
    <$> .required "width" .size <*> .required "height" .size
    <*> .required "meters_per_cell" .single <*> .required "origin_x" .single
    <*> .required "origin_y" .single <*> .required "num_cells" .size <*> .required "cells" .string)

/-- The cells are looked at only when every field has its type. -/
def ofJson (j : Json) : Except PayloadError OccupancyGrid :=
  match sent j with
  | .error e => .error (.shape e)
  | .ok (grid, text) =>
    match Base64.decode text.toList with
    | none => .error .cells
    | some bytes => .ok { grid with cells := bytes.map UInt8.toInt8 }

/-- The index of a cell in the row-by-row list. Product and sum are checked in turn. -/
def index (g : OccupancyGrid) (x y : UInt64) : Except Fault UInt64 := do
  let start ← checked (y.toNat * g.width.toNat)
  checked (start.toNat + x.toNat)

/-- The cell in column `x` of row `y`. The index is computed before the cells are looked at. -/
def cell (g : OccupancyGrid) (x y : UInt64) : Except Fault (Option Int8) :=
  if g.width ≤ x ∨ g.height ≤ y then .ok none
  else do
    let i ← g.index x y
    return g.cells[i.toNat]?

def summary (g : OccupancyGrid) : String :=
  let occupied := g.cells.countP (0 < ·)
  let free := g.cells.countP (· < 0)
  toString g.width.toNat ++ "x" ++ toString g.height.toNat ++ " cells at " ++
    Layout.prose g.metersPerCell ++ " m/cell, origin (" ++ Layout.prose g.originX ++ ", " ++
    Layout.prose g.originY ++ "); " ++ toString occupied ++ " occupied, " ++ toString free ++
    " free, " ++ toString (g.cells.length - occupied - free) ++ " unknown"

end OccupancyGrid

end RobotBridge
