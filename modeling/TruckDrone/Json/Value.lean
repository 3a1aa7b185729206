import TruckDrone.Json.Skip

/-! Readers of single values and lists. A value of another type than wanted is a
mismatch, but a number, word or text is read to its end first, and where it breaks off
the text is malformed. -/

set_option autoImplicit false

namespace TruckDrone.Json.Reader

variable {α : Type}

def otherType : Reader α := do
  match ← look with
  | some 'n' => word ['n', 'u', 'l', 'l']; refuse .mismatch
  | some 't' => word ['t', 'r', 'u', 'e']; refuse .mismatch
  | some 'f' => word ['f', 'a', 'l', 's', 'e']; refuse .mismatch
  | some '"' =>
    advance
    let _ ← Quoted.rest
    refuse .mismatch
  | some '[' => refuse .mismatch
  | some '{' => refuse .mismatch
  | some c =>
    if c = '-' || c.isDigit then
      let _ ← Numeral.readFinite
      refuse .mismatch
    else refuse .malformed
  | none => refuse .malformed

def numeral : Reader Numeral := do
  match ← look with
  | some c => if c = '-' || c.isDigit then Numeral.readFinite else otherType
  | none => refuse .malformed

def natural : Reader Nat := do
  match (← numeral).toNat? with
  | some n => return n
  | none => refuse .mismatch

def float : Reader Binary64 := Numeral.toBinary64 <$> numeral

def flag : Reader Bool := do
  match ← look with
  | some 't' => word ['t', 'r', 'u', 'e']; return true
  | some 'f' => word ['f', 'a', 'l', 's', 'e']; return false
  | _ => otherType

def null : Reader Unit := do
  match ← look with
  | some 'n' => word ['n', 'u', 'l', 'l']
  | _ => otherType

def text : Reader String := do
  match ← look with
  | some '"' =>
    advance
    String.ofList <$> Quoted.rest
  | _ => otherType

def list (item : Reader α) : Reader (List α) := do
  match ← look with
  | some '[' =>
    advance
    List.reverse <$> entries ']' (fun items => (· :: items) <$> item) []
  | _ => otherType

/-- A value with one of the given names. It is written as its name alone or as an object
of one field; the payload of a name says how its field is read, and what the bare name
stands for, if anything. -/
structure Payload (α : Type) where
  alone : Option α
  field : Reader α

def variant (payload : String → Option (Payload α)) : Reader α := do
  match ← look with
  | some '{' =>
    advance
    expect '"'
    match payload (String.ofList (← Quoted.rest)) with
    | none => refuse .mismatch
    | some payload =>
      expect ':'
      let value ← payload.field
      expect '}'
      return value
  | some '"' =>
    match (payload (← text)).bind Payload.alone with
    | none => refuse .mismatch
    | some value => return value
  | _ => refuse .malformed

def Payload.unit (value : α) : Payload α := ⟨some value, (fun _ => value) <$> null⟩

end TruckDrone.Json.Reader
