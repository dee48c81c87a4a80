import ThreatOrbit.Lib.Lines

/-
  Comma separated values, as `csv.reader` reads them.

  Key definitions:
    * `CsvReader.read`
    * `stringLines`, `csvReader`
-/

---- The Reader

namespace Lib

inductive CsvState where
  | startRecord
  | startField
  | inField
  | inQuoted
  | quoteInQuoted
  | eatNewline
deriving DecidableEq

/- The field that is read, and those of the row before it. -/
structure CsvReader where
  state : CsvState
  field : Str
  fields : List Str

/- `csv.field_size_limit()`. -/
def fieldSizeLimit : Nat := 131072

def CsvReader.start : CsvReader :=
  ⟨.startRecord, [], []⟩

/- The field ends. -/
def CsvReader.save
    (r : CsvReader)
    (state : CsvState) : CsvReader :=
  ⟨state, [], r.fields ++ [r.field]⟩

/- The field goes on, `none` where it is too long. -/
def CsvReader.add
    (r : CsvReader)
    (state : CsvState)
    (c : Nat) : Option CsvReader :=
  if fieldSizeLimit ≤ r.field.length then none
  else some ⟨state, r.field ++ [c], r.fields⟩

def isNewline (c : Nat) : Bool :=
  c == 10 || c == 13

/- A character at the start of a field. -/
def CsvReader.readStart
    (r : CsvReader)
    (c : Nat) : Option CsvReader :=
  if isNewline c then some (r.save .eatNewline)
  else if c = cp '"' then some { r with state := .inQuoted }
  else if c = cp ',' then some (r.save .startField)
  else r.add .inField c

/- A character that follows others of a field. -/
def CsvReader.readMore
    (r : CsvReader)
    (c : Nat) : Option CsvReader :=
  if isNewline c then some (r.save .eatNewline)
  else if c = cp ',' then some (r.save .startField)
  else r.add .inField c

/- A character, or the end of a line; `none` where the reader
raises. -/
def CsvReader.read
    (r : CsvReader) : Option Nat → Option CsvReader
| none =>
    match r.state with
    | .startRecord | .inQuoted => some r
    | .eatNewline => some { r with state := .startRecord }
    | _ => some (r.save .startRecord)
| some c =>
    match r.state with
    | .startRecord =>
        if isNewline c then some { r with state := .eatNewline }
        else r.readStart c
    | .startField => r.readStart c
    | .inField => r.readMore c
    | .inQuoted =>
        if c = cp '"' then some { r with state := .quoteInQuoted }
        else r.add .inQuoted c
    | .quoteInQuoted =>
        if c = cp '"' then r.add .inQuoted c else r.readMore c
    | .eatNewline => if isNewline c then some r else none

def CsvReader.readLine
    (r : CsvReader)
    (line : Str) : Option CsvReader :=
  (line.map some ++ [none]).foldlM CsvReader.read r

/- The rows of the lines that are left; the last is `none`
where the reader raises. -/
def csvRows : CsvReader → List Str → List (Option (List Str))
| r, [] =>
    if r.field ≠ [] ∨ r.state = .inQuoted then
      [some (r.save .startRecord).fields]
    else []
| r, line :: rest =>
    match r.readLine line with
    | none => [none]
    | some r' =>
        if r'.state = .startRecord then
          some r'.fields :: csvRows .start rest
        else csvRows r' rest

/- The lines of `io.StringIO`, which only a line feed ends. -/
def stringLines : Str → List Str
| [] => []
| c :: rest =>
    if c = 10 then [c] :: stringLines rest
    else consLine c (stringLines rest)

/- `csv.reader(io.StringIO(text))`. -/
def csvReader (text : Str) : List (Option (List Str)) :=
  csvRows .start (stringLines text)

example :
    csvReader (lit "1,\"a,\"\"b\"\n\n2,c\n") =
      [some [lit "1", lit "a,\"b"], some [],
        some [lit "2", lit "c"]] := by
  decide

end Lib
