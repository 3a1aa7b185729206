import TruckDrone.Json.Reader

/-! Quoted text: its written form, and how it is read back. -/

set_option autoImplicit false

namespace TruckDrone.Json.Quoted

def hexDigit (digit : Nat) : Char := Char.ofNat (if digit < 10 then 48 + digit else 87 + digit)

def escaped (c : Char) : List Char :=
  if c = '"' then ['\\', '"']
  else if c = '\\' then ['\\', '\\']
  else if c = '\x08' then ['\\', 'b']
  else if c = '\x0c' then ['\\', 'f']
  else if c = '\n' then ['\\', 'n']
  else if c = '\r' then ['\\', 'r']
  else if c = '\t' then ['\\', 't']
  else if c.toNat < 0x20 then
    ['\\', 'u', '0', '0', hexDigit (c.toNat / 16), hexDigit (c.toNat % 16)]
  else [c]

def write (text : List Char) : List Char := '"' :: text.flatMap escaped ++ ['"']

def hexValue? (c : Char) : Option Nat :=
  if c.isDigit then some (c.toNat - 48)
  else if 'a' ≤ c ∧ c ≤ 'f' then some (c.toNat - 87)
  else if 'A' ≤ c ∧ c ≤ 'F' then some (c.toNat - 55)
  else none

open Reader

def codeUnit : Reader Nat :=
  [(), (), (), ()].foldlM (fun value _ => do
    match hexValue? (← take) with
    | some digit => return 16 * value + digit
    | none => refuse .malformed) 0

/-- The character of a code unit. A high surrogate needs the escape of a low one after
it; a low one alone is refused. -/
def codePoint : Reader Char := do
  let unit ← codeUnit
  if 0xdc00 ≤ unit ∧ unit ≤ 0xdfff then refuse .malformed
  else if 0xd800 ≤ unit ∧ unit ≤ 0xdbff then
    word ['\\', 'u']
    let low ← codeUnit
    if 0xdc00 ≤ low ∧ low ≤ 0xdfff then
      return Char.ofNat (0x10000 + (unit - 0xd800) * 0x400 + (low - 0xdc00))
    else refuse .malformed
  else return Char.ofNat unit

def escape (code : Reader Char) : Reader Char := do
  match ← take with
  | '"' => return '"'
  | '\\' => return '\\'
  | '/' => return '/'
  | 'b' => return '\x08'
  | 'f' => return '\x0c'
  | 'n' => return '\n'
  | 'r' => return '\r'
  | 't' => return '\t'
  | 'u' => code
  | _ => refuse .malformed

def read (code : Reader Char) (text : List Char) : Except Refusal (Taken (List Char) text) :=
  match text with
  | [] => .error .malformed
  | '"' :: rest => .ok ⟨[], rest, Nat.le_succ _⟩
  | '\\' :: rest =>
    match escape code rest with
    | .error refusal => .error refusal
    | .ok taken =>
      match read code taken.rest with
      | .error refusal => .error refusal
      | .ok final => .ok ⟨taken.value :: final.value, final.rest,
          Nat.le_trans final.shrinks (Nat.le_trans taken.shrinks (Nat.le_succ _))⟩
  | c :: rest =>
    if c.toNat < 0x20 then .error .malformed
    else
      match read code rest with
      | .error refusal => .error refusal
      | .ok final => .ok ⟨c :: final.value, final.rest, Nat.le_trans final.shrinks (Nat.le_succ _)⟩
  termination_by text.length
  decreasing_by
    · exact Nat.lt_succ_of_le taken.shrinks
    · exact Nat.lt_succ_self _

def rest : Reader (List Char) := read codePoint

/-- Passes over the rest of a text whose characters do not matter; code units need not
pair up. -/
def skip : Reader Unit := do
  let _ ← read (do
    let _ ← codeUnit
    return ' ')

end TruckDrone.Json.Quoted
