import TruckDrone.Json.Value

/-! Readers of records: objects with the fields in any order, or lists of the fields in
their own order. -/

set_option autoImplicit false

namespace TruckDrone.Json

structure RecordField (δ : Type) where
  name : String
  isFilled : δ → Bool
  fill : δ → Reader δ

namespace RecordField

def into {δ α : Type} (name : String) (reader : Reader α) (get : δ → Option α)
    (set : δ → α → δ) : RecordField δ :=
  ⟨name, fun draft => (get draft).isSome, fun draft => set draft <$> reader⟩

end RecordField

namespace Reader

variable {δ α : Type}

/-- One field of an object. A field may not occur twice, and unknown ones are passed
over. -/
def member (fields : List (RecordField δ)) (draft : δ) : Reader δ := do
  expect '"'
  let name := String.ofList (← Quoted.rest)
  match fields.find? (·.name = name) with
  | none =>
    expect ':'
    Skip.value
    return draft
  | some field =>
    if field.isFilled draft then refuse .mismatch
    else
      expect ':'
      field.fill draft

/-- The fields as successive items of a list; `first` if none came before. -/
def inOrder : List (RecordField δ) → Bool → δ → Reader δ
  | [], _, draft => return draft
  | field :: fields, first, draft => do
    match ← look with
    | none => refuse .malformed
    | some ']' => refuse .mismatch
    | some _ =>
      unless first do expect ','
      inOrder fields false (← field.fill draft)

def tuple (fields : List (RecordField δ)) (empty : δ) (finish : δ → Option α) : Reader α := do
  expect '['
  match finish (← inOrder fields true empty) with
  | none => refuse .mismatch
  | some value =>
    expect ']'
    return value

def record (fields : List (RecordField δ)) (empty : δ) (finish : δ → Option α) : Reader α := do
  match ← look with
  | some '{' =>
    advance
    match finish (← entries '}' (member fields) empty) with
    | none => refuse .mismatch
    | some value => return value
  | some '[' => tuple fields empty finish
  | _ => otherType

end Reader

end TruckDrone.Json
