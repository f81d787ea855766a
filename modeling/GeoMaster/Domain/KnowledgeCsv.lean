import GeoMaster.Domain.Base
import GeoMaster.Lib.Op

/-!
# Tables in CSV

The lexical guard of an imported table. It enforces quoting before a reader decodes the cells, and bounds them before
they are allocated.
-/

namespace GeoMaster

open Except

namespace KnowledgeCsv

def maxColumns : Nat :=
  256

def maxCellBytes : Nat :=
  256 * 1024

/-- `"` -/
def quote : UInt8 :=
  34

/-- `,` -/
def comma : UInt8 :=
  44

/-- `\r` -/
def carriageReturn : UInt8 :=
  13

/-- `\n` -/
def lineFeed : UInt8 :=
  10

/-- Where the guard is within a field. -/
inductive State where
  | start
  | bare
  | quoted
  | closed
  deriving DecidableEq

/-- A byte within a field or after it: the state, the columns of the record so far and the bytes of the cell. -/
def step (state : State) (columns cellBytes : Nat) (byte : UInt8) : Except AppError (State × Nat × Nat) :=
  match state with
  | .quoted => pure (if byte = quote then .closed else .quoted, columns, cellBytes)
  | .start | .bare | .closed =>
    if byte = quote then
      if state = .bare then throw (.invalidRequest "CSV quote inside an unquoted field")
      else pure (.quoted, columns, cellBytes)
    else if byte = comma then do
      failIf (columns + 1 > maxColumns) (.invalidRequest "CSV exceeds 256 columns")
      pure (.start, columns + 1, 0)
    else if byte = carriageReturn ∨ byte = lineFeed then pure (.start, 1, 0)
    else if state = .closed then throw (.invalidRequest "CSV has text after a closing quote")
    else pure (.bare, columns, cellBytes)

def validateFrom (state : State) (columns cellBytes : Nat) : List UInt8 → Except AppError Unit
  | [] => failIf (state = .quoted) (.invalidRequest "CSV has an unterminated quoted field")
  | byte :: rest => do
    let (state, columns, cellBytes) ← step state columns cellBytes byte
    failIf (cellBytes + 1 > maxCellBytes) (.invalidRequest "CSV cell exceeds 256 KiB")
    validateFrom state columns (cellBytes + 1) rest

def validateCsv (text : List UInt8) : Except AppError Unit :=
  validateFrom .start 1 0 text

end KnowledgeCsv

end GeoMaster
