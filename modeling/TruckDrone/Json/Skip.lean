import TruckDrone.Json.Numeral
import TruckDrone.Json.Quoted

/-! Passing over values of any form. -/

set_option autoImplicit false

namespace TruckDrone.Json.Skip

open Reader

def scalar : Reader Unit := do
  match ← peek with
  | some 'n' => word ['n', 'u', 'l', 'l']
  | some 't' => word ['t', 'r', 'u', 'e']
  | some 'f' => word ['f', 'a', 'l', 's', 'e']
  | some '"' => advance; Quoted.skip
  | some '-' => let _ ← Numeral.read
  | some c => if c.isDigit then let _ ← Numeral.read else refuse .malformed
  | none => refuse .malformed

def name : Reader Unit := do
  expect '"'
  Quoted.skip
  expect ':'

/-- What comes next: a value, or what follows one in the innermost open bracket. -/
inductive Awaiting where
  | value
  | ending
  deriving DecidableEq

/-- What a step leaves to do: the brackets still to be closed, innermost first, and what
comes next in them. -/
structure Progress where
  awaiting : Awaiting
  closes : List Char

def start (closes : List Char) : Reader Progress := do
  match ← look with
  | some '[' =>
    advance
    return ⟨if (← look) = some ']' then .ending else .value, ']' :: closes⟩
  | some '{' =>
    advance
    if (← look) = some '}' then return ⟨.ending, '}' :: closes⟩
    name
    return ⟨.value, '}' :: closes⟩
  | _ =>
    scalar
    return ⟨.ending, closes⟩

def proceed (closer : Char) (closes : List Char) : Reader Progress := do
  let found ← look
  if found = some closer then
    advance
    return ⟨.ending, closes⟩
  else
    expect ','
    if closer = '}' then name
    return ⟨.value, closer :: closes⟩

def step : Progress → Reader Progress
  | ⟨.value, closes⟩ => start closes
  | ⟨.ending, closer :: closes⟩ => proceed closer closes
  | ⟨.ending, []⟩ => pure ⟨.ending, []⟩

/-- Steps until no bracket is open. Every step takes something of the text. -/
def finish (progress : Progress) (text : List Char) : Except Refusal (Taken Unit text) :=
  if progress.awaiting = .ending ∧ progress.closes.isEmpty then .ok ⟨(), text, Nat.le_refl _⟩
  else
    match step progress text with
    | .error refusal => .error refusal
    | .ok taken =>
      if _shorter : taken.rest.length < text.length then
        match finish taken.value taken.rest with
        | .error refusal => .error refusal
        | .ok final => .ok ⟨(), final.rest, Nat.le_trans final.shrinks taken.shrinks⟩
      else .error .malformed
  termination_by text.length

def value : Reader Unit := finish ⟨.value, []⟩

end TruckDrone.Json.Skip
