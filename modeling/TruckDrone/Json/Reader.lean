/-! Readers of JSON text. A reader takes a value off the front of the text; what it
leaves is never longer than what it was given, so lists of values end. Reading goes from
left to right and the first thing wrong decides the refusal. -/

set_option autoImplicit false

namespace TruckDrone.Json

inductive Refusal where
  | malformed
  /-- The text so far is JSON, but no value of the type to be read. -/
  | mismatch
  /-- The stops listed for a route do not start and end at the depot. -/
  | unbounded (stops : List Nat)
  deriving DecidableEq, Repr

def Refusal.message : Refusal → String
  | .malformed => "the text is not JSON"
  | .mismatch => "the text holds no value of the type to be read"
  | .unbounded stops =>
    "route [" ++ ", ".intercalate (stops.map toString) ++ "] is not bounded by the depot"

structure Taken (α : Type) (text : List Char) where
  value : α
  rest : List Char
  shrinks : rest.length ≤ text.length

def Reader (α : Type) : Type := (text : List Char) → Except Refusal (Taken α text)

namespace Reader

variable {α σ : Type}

instance : Monad Reader where
  pure value := fun text => .ok ⟨value, text, Nat.le_refl _⟩
  bind first next := fun text =>
    match first text with
    | .error refusal => .error refusal
    | .ok taken =>
      match next taken.value taken.rest with
      | .error refusal => .error refusal
      | .ok final => .ok ⟨final.value, final.rest, Nat.le_trans final.shrinks taken.shrinks⟩

def refuse (refusal : Refusal) : Reader α := fun _ => .error refusal

def peek : Reader (Option Char) := fun text => .ok ⟨text.head?, text, Nat.le_refl _⟩

def advance : Reader Unit := fun text => .ok ⟨(), text.tail, by simp⟩

def take : Reader Char
  | [] => .error .malformed
  | c :: rest => .ok ⟨c, rest, Nat.le_succ _⟩

def takeAll (property : Char → Bool) : Reader (List Char) := fun text =>
  .ok ⟨text.takeWhile property, text.dropWhile property, (List.dropWhile_sublist _).length_le⟩

def isBlank (c : Char) : Bool := c = ' ' || c = '\n' || c = '\t' || c = '\r'

def look : Reader (Option Char) := do
  let _ ← takeAll isBlank
  peek

def expect (c : Char) : Reader Unit := do
  if (← look) = some c then advance else refuse .malformed

def word (letters : List Char) : Reader Unit :=
  letters.forM fun letter => do
    if (← take) ≠ letter then refuse .malformed

def more (close : Char) (entry : σ → Reader σ) (state : σ) (text : List Char) :
    Except Refusal (Taken σ text) :=
  have blanks := (List.dropWhile_sublist isBlank (l := text)).length_le
  match found : text.dropWhile isBlank with
  | [] => .error .malformed
  | c :: rest =>
    have shorter : rest.length < text.length := by
      rw [found] at blanks
      exact blanks
    if c = close then .ok ⟨state, rest, Nat.le_of_lt shorter⟩
    else if c = ',' then
      match entry state rest with
      | .error refusal => .error refusal
      | .ok taken =>
        match more close entry taken.value taken.rest with
        | .error refusal => .error refusal
        | .ok final => .ok ⟨final.value, final.rest,
            Nat.le_trans final.shrinks (Nat.le_trans taken.shrinks (Nat.le_of_lt shorter))⟩
    else .error .malformed
  termination_by text.length
  decreasing_by exact Nat.lt_of_le_of_lt taken.shrinks shorter

def entries (close : Char) (entry : σ → Reader σ) (state : σ) : Reader σ := do
  if (← look) = some close then
    advance
    return state
  else more close entry (← entry state)

def whole (reader : Reader α) (text : String) : Except Refusal α :=
  match reader text.toList with
  | .error refusal => .error refusal
  | .ok taken => if taken.rest.all isBlank then .ok taken.value else .error .malformed

end Reader

end TruckDrone.Json
