import TruckDrone.Decimal.Text
import TruckDrone.Json.Quoted

/-! JSON documents to be written, and their two layouts. -/

set_option autoImplicit false

namespace TruckDrone.Json

inductive Document where
  | null
  | flag (value : Bool)
  | natural (value : Nat)
  | float (value : Binary64)
  | text (value : String)
  | list (items : List Document)
  /-- An object with its fields in the order given. -/
  | record (fields : List (String × Document))

inductive Layout where
  | compact
  /-- Every item and field on a line of its own, two blanks deeper than its brackets. -/
  | indented
  deriving DecidableEq, Repr

namespace Layout

def line : Layout → (depth : Nat) → List Char
  | .compact, _ => []
  | .indented, depth => '\n' :: List.replicate (2 * depth) ' '

def colon : Layout → List Char
  | .compact => [':']
  | .indented => [':', ' ']

end Layout

namespace Document

def enclose (layout : Layout) (depth : Nat) (opening closing : Char) (items : List (List Char)) :
    List Char :=
  match items with
  | [] => [opening, closing]
  | first :: rest =>
    let line := layout.line (depth + 1)
    opening :: line ++ first ++ rest.flatMap (fun item => ',' :: line ++ item) ++
      layout.line depth ++ [closing]

/-- An infinite double, or one that is no number, is written as null. -/
def floatText (x : Binary64) : List Char :=
  if x.isFinite then Decimal.floatText .report x else ['n', 'u', 'l', 'l']

mutual

def write (layout : Layout) (depth : Nat) : Document → List Char
  | .null => ['n', 'u', 'l', 'l']
  | .flag true => ['t', 'r', 'u', 'e']
  | .flag false => ['f', 'a', 'l', 's', 'e']
  | .natural n => Decimal.digits n
  | .float x => floatText x
  | .text value => Quoted.write value.toList
  | .list items => enclose layout depth '[' ']' (writeItems layout (depth + 1) items)
  | .record fields => enclose layout depth '{' '}' (writeFields layout (depth + 1) fields)

def writeItems (layout : Layout) (depth : Nat) : List Document → List (List Char)
  | [] => []
  | item :: rest => write layout depth item :: writeItems layout depth rest

def writeFields (layout : Layout) (depth : Nat) : List (String × Document) → List (List Char)
  | [] => []
  | (name, value) :: rest =>
    (Quoted.write name.toList ++ layout.colon ++ write layout depth value) ::
      writeFields layout depth rest

end

def toText (layout : Layout) (document : Document) : String :=
  String.ofList (write layout 0 document)

end Document

end TruckDrone.Json
