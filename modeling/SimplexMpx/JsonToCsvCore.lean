import SimplexMpx.CsvText

/-!
The script `json_to_csv.py`: the benchmarks of a JSON report become the rows of a CSV file. Values
are those `json.load` returns, with Python's rules for subscripts, iteration, comparison and `str`;
a raised exception leaves the rows already written in the file, whose encoding is UTF-8.
-/

namespace SimplexMpx.JsonToCsv

open CsvText

-- The last three are raised by `json.load` alone.
inductive PythonError
  | keyError (key : String)
  | typeError
  | attributeError
  | valueError
  | unicodeEncodeError
  | unicodeDecodeError
  | recursionError
  | jsonDecodeError
deriving DecidableEq, Repr

abbrev CodePoint := Fin 0x110000

/-- A Python string: code points, among which an escape like `\ud800` leaves a lone surrogate. -/
abbrev Text := List CodePoint

def Surrogate (point : CodePoint) : Prop := 0xD800 ≤ point.val ∧ point.val < 0xE000

theorem toNat_lt (character : Char) : character.toNat < 0x110000 := by
  have valid := character.valid
  have same : character.val.toNat = character.toNat := rfl
  simp only [UInt32.isValidChar, Nat.isValidChar, same] at valid
  omega

def ofChar (character : Char) : CodePoint := ⟨character.toNat, toNat_lt character⟩

def ofString (text : String) : Text := text.toList.map ofChar

instance : Coe String Text := ⟨ofString⟩

def encodePoint (point : CodePoint) : Except PythonError Char :=
  if valid : point.val.isValidChar then .ok (Char.ofNatAux point.val valid)
  else .error .unicodeEncodeError

def encode (text : Text) : Except PythonError (List Char) := text.mapM encodePoint

/-- What the script uses of Python's int and float, and `repr` of a string, which escapes a
surrogate. -/
class Python (Number : Type) where
  ofNat : Nat → Number
  equal : Number → Number → Bool
  less : Number → Number → Bool
  str : Number → String
  reprString : Text → String

-- The keys of a dict are distinct.
inductive Value (Number : Type)
  | null
  | bool (value : Bool)
  | number (value : Number)
  | string (text : Text)
  | list (items : List (Value Number))
  | dict (entries : List (Text × Value Number))

variable {Number : Type}

def valueOf (entries : List (Text × Value Number)) (key : String) : Option (Value Number) :=
  entries.lookup (ofString key)

namespace Value

def subscript (value : Value Number) (key : String) : Except PythonError (Value Number) :=
  match value with
  | .dict entries =>
      match valueOf entries key with
      | some found => .ok found
      | none => .error (.keyError key)
  | _ => .error .typeError

/-- What a `for` goes over; a dict gives its keys, a string its characters. -/
def iterate : Value Number → Except PythonError (List (Value Number))
  | .list items => .ok items
  | .dict entries => .ok (entries.map fun entry => .string entry.1)
  | .string text => .ok (text.map fun point => .string [point])
  | _ => .error .typeError

def get (value : Value Number) (key : String) : Except PythonError (Value Number) :=
  match value with
  | .dict entries => .ok ((valueOf entries key).getD .null)
  | _ => .error .attributeError

def hasKey (value : Value Number) (key : String) : Except PythonError Bool :=
  match value with
  | .dict entries => .ok (valueOf entries key).isSome
  | _ => .error .attributeError

-- `+` with a string on the right, and on the left
def addString (value : Value Number) (suffix : Text) : Except PythonError Text :=
  match value with
  | .string text => .ok (text ++ suffix)
  | _ => .error .typeError

def stringAdd (text : Text) (value : Value Number) : Except PythonError Text :=
  match value with
  | .string suffix => .ok (text ++ suffix)
  | _ => .error .typeError

variable [Python Number]

def ofBool (value : Bool) : Number := Python.ofNat value.toNat

mutual

def equal : Value Number → Value Number → Bool
  | .null, .null => true
  | .bool first, .bool second => first == second
  | .bool first, .number second => Python.equal (ofBool first) second
  | .number first, .bool second => Python.equal first (ofBool second)
  | .number first, .number second => Python.equal first second
  | .string first, .string second => first == second
  | .list first, .list second => equalItems first second
  | .dict first, .dict second => first.length == second.length && equalEntries first second
  | _, _ => false

def equalItems : List (Value Number) → List (Value Number) → Bool
  | [], [] => true
  | first :: rest, second :: others => equal first second && equalItems rest others
  | _, _ => false

def equalEntries : List (Text × Value Number) → List (Text × Value Number) → Bool
  | [], _ => true
  | (key, first) :: rest, others =>
      (match others.lookup key with
        | some second => equal first second
        | none => false) && equalEntries rest others

end

mutual

-- Strings are ordered by code points, lists by the first item that differs.
def less : Value Number → Value Number → Except PythonError Bool
  | .bool first, .bool second => .ok (Python.less (ofBool first : Number) (ofBool second))
  | .bool first, .number second => .ok (Python.less (ofBool first) second)
  | .number first, .bool second => .ok (Python.less first (ofBool second))
  | .number first, .number second => .ok (Python.less first second)
  | .string first, .string second => .ok (decide (first < second))
  | .list first, .list second => lessItems first second
  | _, _ => .error .typeError

def lessItems : List (Value Number) → List (Value Number) → Except PythonError Bool
  | [], others => .ok !others.isEmpty
  | _ :: _, [] => .ok false
  | first :: rest, second :: others =>
      if equal first second then lessItems rest others else less first second

end

mutual

def repr : Value Number → String
  | .null => "None"
  | .bool value => if value then "True" else "False"
  | .number value => Python.str value
  | .string text => Python.reprString Number text
  | .list items => "[" ++ ", ".intercalate (reprItems items) ++ "]"
  | .dict entries => "\x7b" ++ ", ".intercalate (reprEntries entries) ++ "\x7d"

def reprItems : List (Value Number) → List String
  | [] => []
  | item :: rest => repr item :: reprItems rest

def reprEntries : List (Text × Value Number) → List String
  | [] => []
  | (key, value) :: rest =>
      (Python.reprString Number key ++ ": " ++ repr value) :: reprEntries rest

end

/-- The fold behind `min` and `max`: an item that comes before the current one replaces it. -/
def pick (before : Value Number → Value Number → Except PythonError Bool)
    (current : Value Number) : List (Value Number) → Except PythonError (Value Number)
  | [] => .ok current
  | item :: rest => do
      if ← before item current then pick before item rest else pick before current rest

def minimum : List (Value Number) → Except PythonError (Value Number)
  | [] => .error .valueError
  | first :: rest => pick less first rest

def maximum : List (Value Number) → Except PythonError (Value Number)
  | [] => .error .valueError
  | first :: rest => pick (fun item current => less current item) first rest

/-- How `csv.writer` takes a value under `QUOTE_NONNUMERIC`: a bool is a number, `None` is an
empty text. A lone surrogate has no encoding. -/
def cell : Value Number → Except PythonError Cell
  | .null => .ok (.text [])
  | .string text => (encode text).map .text
  | .number value => .ok (.number (Python.str value).toList)
  | .bool value => .ok (.number (if value then "True" else "False").toList)
  | .list items => .ok (.text (repr (.list items)).toList)
  | .dict entries => .ok (.text (repr (.dict entries)).toList)

end Value

def cols : List String :=
  ["fixture", "name", "parameters", "iterations_per_run", "disabled", "runs", "mean", "std_dev",
    "median", "quartile_1", "quartile_3", "minimum", "maximum"]

def parameterText (parameter : Value Number) : Except PythonError Text := do
  let declaration ← parameter.subscript "declaration"
  let assigned ← declaration.addString (ofString "=")
  let value ← parameter.subscript "value"
  Value.stringAdd assigned value

def parameterString (benchmark : Value Number) : Except PythonError Text := do
  let parameters ← benchmark.subscript "parameters"
  let parameters ← parameters.iterate
  let texts ← parameters.mapM parameterText
  return (ofString " ").intercalate texts

def durations (benchmark : Value Number) : Except PythonError (List (Value Number)) := do
  let runs ← benchmark.subscript "runs"
  let runs ← runs.iterate
  runs.mapM fun run => run.subscript "duration"

variable [Python Number]

def csvRow (benchmark : Value Number) : Except PythonError (List (Value Number)) := do
  let row ← cols.mapM benchmark.get
  let row ←
    if ← benchmark.hasKey "parameters" then
      let parameters ← parameterString benchmark
      pure (row.set 2 (.string parameters))
    else pure row
  let runs ← durations benchmark
  let row := row.set 5 (.number (Python.ofNat runs.length))
  let minimum ← Value.minimum runs
  let row := row.set (row.length - 2) minimum
  let maximum ← Value.maximum runs
  return row.set (row.length - 1) maximum

-- A row is encoded as a whole: of one that cannot be, nothing is written.
def csvCells (benchmark : Value Number) : Except PythonError (List Cell) := do
  let row ← csvRow benchmark
  row.mapM Value.cell

/-- The text of `outfile`, and the exception the script ends with. -/
structure Outcome where
  written : List Char
  raised : Option PythonError

def writeBenchmarks : List (Value Number) → List Char → Outcome
  | [], written => { written := written, raised := none }
  | benchmark :: rest, written =>
      match csvCells benchmark with
      | .error error => { written := written, raised := some error }
      | .ok cells => writeBenchmarks rest (written ++ writeRow cells)

def benchmarksOf (document : Except PythonError (Value Number)) :
    Except PythonError (List (Value Number)) := do
  let data ← document
  let benchmarks ← data.subscript "benchmarks"
  benchmarks.iterate

def headerRow : List Cell := cols.map fun col => .text col.toList

/-- `document` is what `json.load` returns or raises; the header is written before it is called. -/
def convert (document : Except PythonError (Value Number)) : Outcome :=
  let written := writeRow headerRow
  match benchmarksOf document with
  | .error error => { written := written, raised := some error }
  | .ok benchmarks => writeBenchmarks benchmarks written

end SimplexMpx.JsonToCsv
